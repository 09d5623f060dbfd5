import Mathlib.Data.List.Basic

/-!
# Monitors with one waiting thread

A mutex protects a value, and a condition variable belongs to it. Callers take
the mutex, update the value, notify, and release the mutex; an update may skip
the notification. One thread takes the mutex, prepares the value, waits in a loop
for a predicate of it, and acts on it when the predicate holds. Waking up and
taking the mutex again are separate steps, and a sleeper may wake up for no
reason.

Two facts hold of every monitor whose silent updates never make the predicate
true. The waiter acts only when the predicate holds; and no wakeup is lost: a
waiter whose predicate holds acts after a bounded number of steps, but for those
of the callers that come to the mutex before it.
-/

namespace Monitor

/-- What a monitor protects. -/
structure Spec (σ υ ρ : Type*) where
  /-- What a caller does to the value. -/
  update : υ → σ → σ
  /-- Whether the caller notifies the waiter. -/
  notifies : υ → Bool
  /-- What the waiter does to the value before it waits. -/
  enter : σ → σ
  /-- The predicate that the waiter waits for. -/
  ready : σ → Bool
  /-- What the waiter does when it holds. -/
  act : σ → ρ × σ

/-- Where the waiting thread is. -/
inductive Waiter where
  /-- Not in a wait. -/
  | outside
  /-- With the mutex, about to test the predicate. -/
  | checking
  /-- Without the mutex, until it is woken. -/
  | asleep
  /-- Woken, and without the mutex. -/
  | woken
  /-- With the mutex, after the predicate held. -/
  | acting
  deriving DecidableEq, Repr

/-- Who has the mutex. -/
inductive Holder (υ : Type*) where
  | free
  | waiter
  /-- A caller that has not updated the value. -/
  | entered (u : υ)
  /-- A caller that has, and has not notified the waiter. -/
  | stored (u : υ)
  /-- A caller that is about to release the mutex. -/
  | leaving (u : υ)
  deriving DecidableEq, Repr

/-- A monitor in action. -/
structure State (σ υ : Type*) where
  /-- The value. -/
  shared : σ
  /-- Who has the mutex. -/
  holder : Holder υ
  /-- Where the waiting thread is. -/
  waiter : Waiter
  deriving DecidableEq, Repr

/-- What a step does, as seen from outside. -/
inductive Label (υ ρ : Type*) where
  /-- A caller takes the mutex. -/
  | enter (u : υ)
  /-- A caller updates the value. -/
  | store (u : υ)
  /-- A caller notifies the waiter, if it does. -/
  | notify (u : υ)
  /-- A caller releases the mutex. -/
  | leave (u : υ)
  /-- The waiting thread takes the mutex. -/
  | wait
  /-- It tests the predicate, or takes the mutex again. -/
  | inner
  /-- It wakes up for no reason. -/
  | spurious
  /-- It acts, and releases the mutex. -/
  | act (r : ρ)
  deriving DecidableEq, Repr

variable {σ υ ρ : Type*}

/-- A notification wakes the waiter up if it sleeps. -/
def Waiter.wake : Waiter → Waiter
  | .asleep => .woken
  | w => w

/-- The monitor with nobody in it. -/
def State.idle (v : σ) : State σ υ := ⟨v, .free, .outside⟩

/-- The atomic steps of all threads. -/
inductive Step (spec : Spec σ υ ρ) : State σ υ → Label υ ρ → State σ υ → Prop
  | enter (s : State σ υ) (u : υ) (hfree : s.holder = .free) :
      Step spec s (.enter u) { s with holder := .entered u }
  | store (s : State σ υ) (u : υ) (hentered : s.holder = .entered u) :
      Step spec s (.store u) { s with shared := spec.update u s.shared, holder := .stored u }
  | notify (s : State σ υ) (u : υ) (hstored : s.holder = .stored u) :
      Step spec s (.notify u)
        { s with
          holder := .leaving u
          waiter := if spec.notifies u then s.waiter.wake else s.waiter }
  | leave (s : State σ υ) (u : υ) (hleaving : s.holder = .leaving u) :
      Step spec s (.leave u) { s with holder := .free }
  | wait (s : State σ υ) (houtside : s.waiter = .outside) (hfree : s.holder = .free) :
      Step spec s .wait
        { shared := spec.enter s.shared, holder := .waiter, waiter := .checking }
  | pass (s : State σ υ) (hchecking : s.waiter = .checking) (hready : spec.ready s.shared = true) :
      Step spec s .inner { s with waiter := .acting }
  | sleep (s : State σ υ) (hchecking : s.waiter = .checking)
      (hnot : spec.ready s.shared = false) :
      Step spec s .inner { s with holder := .free, waiter := .asleep }
  | spurious (s : State σ υ) (hasleep : s.waiter = .asleep) :
      Step spec s .spurious { s with waiter := .woken }
  | relock (s : State σ υ) (hwoken : s.waiter = .woken) (hfree : s.holder = .free) :
      Step spec s .inner { s with holder := .waiter, waiter := .checking }
  | act (s : State σ υ) (hacting : s.waiter = .acting) :
      Step spec s (.act (spec.act s.shared).1)
        { shared := (spec.act s.shared).2, holder := .free, waiter := .outside }

/-- Runs of a monitor. -/
inductive Run (spec : Spec σ υ ρ) : State σ υ → List (Label υ ρ) → State σ υ → Prop
  | nil (s : State σ υ) : Run spec s [] s
  | concat {s t w : State σ υ} {labels : List (Label υ ρ)} {label : Label υ ρ}
      (hrun : Run spec s labels t) (hstep : Step spec t label w) :
      Run spec s (labels ++ [label]) w

/-- Updates without a notification do not make the predicate true. -/
def Spec.SilentKeeps (spec : Spec σ υ ρ) : Prop :=
  ∀ u v, spec.notifies u = false → spec.ready (spec.update u v) = true → spec.ready v = true

/-- No update is silent at all. -/
theorem Spec.silentKeeps_of_notifies {spec : Spec σ υ ρ} (h : ∀ u, spec.notifies u = true) :
    spec.SilentKeeps := by
  intro u v hquiet
  rw [h] at hquiet
  cases hquiet

/-- No update makes the predicate false. -/
def Spec.Stable (spec : Spec σ υ ρ) : Prop :=
  ∀ u v, spec.ready v = true → spec.ready (spec.update u v) = true

/-! ### Safety -/

/-- What holds in every state: the waiter has the mutex when it checks or acts, it acts only on a
value that is ready, and when it sleeps on one that is ready its notification is due. -/
structure Inv (spec : Spec σ υ ρ) (s : State σ υ) : Prop where
  holds_iff : s.holder = .waiter ↔ s.waiter = .checking ∨ s.waiter = .acting
  ready_of_acting : s.waiter = .acting → spec.ready s.shared = true
  due : s.waiter = .asleep → spec.ready s.shared = true →
    ∃ u, s.holder = .stored u ∧ spec.notifies u = true

/-- Nobody is in the monitor at first. -/
theorem inv_idle (spec : Spec σ υ ρ) (v : σ) : Inv spec (State.idle v) where
  holds_iff := by simp [State.idle]
  ready_of_acting := by simp [State.idle]
  due := by simp [State.idle]

/-- A waiter that sleeps after a notification was not notified. -/
theorem Waiter.wake_ne_asleep (w : Waiter) : w.wake ≠ .asleep := by
  cases w <;> simp [wake]

/-- A notification does not move a waiter that has the mutex, or give it to one. -/
theorem Waiter.wake_eq_iff {w place : Waiter} (hasleep : place ≠ .asleep)
    (hwoken : place ≠ .woken) : w.wake = place ↔ w = place := by
  cases w <;> cases place <;> simp_all [wake]

/-- While somebody else has the mutex, the waiter neither checks nor acts. -/
theorem Inv.not_holds {spec : Spec σ υ ρ} {s : State σ υ} (h : Inv spec s)
    (hholder : s.holder ≠ .waiter) : s.waiter ≠ .checking ∧ s.waiter ≠ .acting :=
  not_or.mp (mt h.holds_iff.mpr hholder)

/-- Every step keeps the invariant. -/
theorem Inv.step {spec : Spec σ υ ρ} (hsilent : spec.SilentKeeps) {s t : State σ υ}
    {label : Label υ ρ} (h : Inv spec s) (hstep : Step spec s label t) : Inv spec t := by
  cases hstep with
  | enter u hfree =>
    obtain ⟨hchecking, hacting⟩ := h.not_holds (by simp [hfree])
    exact {
      holds_iff := by simp [hchecking, hacting]
      ready_of_acting := h.ready_of_acting
      due := by
        intro hasleep hready
        obtain ⟨u', hstored, -⟩ := h.due hasleep hready
        simp [hfree] at hstored }
  | store u hentered =>
    obtain ⟨hchecking, hacting⟩ := h.not_holds (by simp [hentered])
    exact {
      holds_iff := by simp [hchecking, hacting]
      ready_of_acting := fun hacts => absurd hacts hacting
      due := by
        intro hasleep hready
        refine ⟨u, rfl, ?_⟩
        by_contra hquiet
        rw [Bool.not_eq_true] at hquiet
        -- A silent update found the predicate true already, and then a notification was due.
        obtain ⟨u', hstored, -⟩ := h.due hasleep (hsilent u _ hquiet hready)
        simp [hentered] at hstored }
  | notify u hstored =>
    obtain ⟨hchecking, hacting⟩ := h.not_holds (by simp [hstored])
    have hplace : ∀ place, place ≠ .asleep → place ≠ .woken →
        ((if spec.notifies u then s.waiter.wake else s.waiter) = place ↔ s.waiter = place) := by
      intro place hasleep hwoken
      split_ifs
      · exact Waiter.wake_eq_iff hasleep hwoken
      · exact Iff.rfl
    exact {
      holds_iff := by
        simp [hplace .checking (by decide) (by decide), hplace .acting (by decide) (by decide),
          hchecking, hacting]
      ready_of_acting := fun hacts =>
        h.ready_of_acting ((hplace .acting (by decide) (by decide)).mp hacts)
      due := by
        intro hasleep hready
        dsimp only at hasleep hready
        split_ifs at hasleep with hnotifies
        · exact absurd hasleep (Waiter.wake_ne_asleep _)
        · obtain ⟨u', hstored', hnotifies'⟩ := h.due hasleep hready
          obtain rfl := Holder.stored.inj (hstored.symm.trans hstored')
          exact absurd hnotifies' hnotifies }
  | leave u hleaving =>
    obtain ⟨hchecking, hacting⟩ := h.not_holds (by simp [hleaving])
    exact {
      holds_iff := by simp [hchecking, hacting]
      ready_of_acting := h.ready_of_acting
      due := by
        intro hasleep hready
        obtain ⟨u', hstored, -⟩ := h.due hasleep hready
        simp [hleaving] at hstored }
  | wait houtside hfree =>
    exact ⟨by simp, fun hacting => by simp at hacting, fun hasleep => by simp at hasleep⟩
  | pass hchecking hready =>
    have hholder := h.holds_iff.mpr (Or.inl hchecking)
    exact ⟨by simp [hholder], fun _ => hready, fun hasleep => by simp at hasleep⟩
  | sleep hchecking hnot =>
    exact ⟨by simp, fun hacting => by simp at hacting,
      fun _ hready => absurd (hnot.symm.trans hready) (by decide)⟩
  | spurious hasleep =>
    have hholder : s.holder ≠ .waiter := by
      intro hholder
      simpa [hasleep] using h.holds_iff.mp hholder
    exact ⟨by simp [hholder], fun hacting => by simp at hacting, fun hstill => by simp at hstill⟩
  | relock hwoken hfree =>
    exact ⟨by simp, fun hacting => by simp at hacting, fun hasleep => by simp at hasleep⟩
  | act hacting =>
    exact ⟨by simp, fun hacts => by simp at hacts, fun hasleep => by simp at hasleep⟩

/-- So does every run. -/
theorem Inv.run {spec : Spec σ υ ρ} (hsilent : spec.SilentKeeps) {s t : State σ υ}
    {labels : List (Label υ ρ)} (h : Inv spec s) (hrun : Run spec s labels t) : Inv spec t := by
  induction hrun with
  | nil => exact h
  | concat _ hstep ih => exact ih.step hsilent hstep

/-- While the waiter is outside, its thread may do anything to the value. -/
theorem Inv.outside {spec : Spec σ υ ρ} {s : State σ υ} (h : Inv spec s)
    (houtside : s.waiter = .outside) (v : σ) : Inv spec { s with shared := v } where
  holds_iff := h.holds_iff
  ready_of_acting := by simp [houtside]
  due := by simp [houtside]

/-! ### Progress -/

/-- How far the waiter is from its action. -/
def Waiter.distance : Waiter → ℕ
  | .outside => 0
  | .acting => 1
  | .checking => 2
  | .woken => 3
  | .asleep => 4

/-- How far the holder is from releasing the mutex, apart from the waiter. -/
def Holder.distance : Holder υ → ℕ
  | .free | .waiter => 0
  | .leaving _ => 1
  | .stored _ => 2
  | .entered _ => 3

/-- A bound on the steps until the waiter has acted. -/
def State.distance (s : State σ υ) : ℕ := s.waiter.distance + s.holder.distance

/-- A waiter that sleeps has the longest way. -/
theorem Waiter.distance_le (w : Waiter) : w.distance ≤ 4 := by
  cases w <;> simp [distance]

/-- No step takes more. -/
theorem State.distance_le (s : State σ υ) : s.distance ≤ 7 := by
  have hholder : s.holder.distance ≤ 3 := by cases s.holder <;> simp [Holder.distance]
  exact Nat.add_le_add s.waiter.distance_le hholder

/-- A step that is due: one inside the monitor that is not a wakeup for no reason. -/
def Label.Due : Label υ ρ → Prop
  | .enter _ | .wait | .spurious => False
  | _ => True

/-- A caller comes to the monitor. -/
def Label.comes : Label υ ρ → Bool
  | .enter _ => true
  | _ => false

/-- A step of the waiting thread. -/
def Label.ofWaiter : Label υ ρ → Bool
  | .wait | .inner | .spurious | .act _ => true
  | _ => false

/-- A notification does not put the waiter further away. -/
theorem Waiter.distance_wake_le (w : Waiter) : w.wake.distance ≤ w.distance := by
  cases w <;> simp [wake, distance]

/-- A waiter in the monitor has some way to go. -/
theorem Waiter.distance_pos {w : Waiter} (hwaits : w ≠ .outside) : 1 ≤ w.distance := by
  cases w <;> simp_all [distance]

/-- Each step brings a waiter whose predicate holds closer to its action, except that a caller who
comes takes four steps of its own. The waiter itself never moves away. -/
theorem Step.closer {spec : Spec σ υ ρ} {s t : State σ υ} {label : Label υ ρ}
    (hstep : Step spec s label t) (hwaits : s.waiter ≠ .outside)
    (hready : spec.ready s.shared = true) :
    1 + t.distance ≤ s.distance + 4 * [label].countP Label.comes ∧
      [label].countP Label.ofWaiter + t.waiter.distance ≤ s.waiter.distance := by
  unfold State.distance
  cases hstep with
  | enter u hfree =>
    simp only [hfree, Holder.distance, Label.comes, Label.ofWaiter, List.countP_singleton]
    simp only [if_true, Bool.false_eq_true, if_false]
    omega
  | store u hentered =>
    simp only [hentered, Holder.distance, Label.ofWaiter, List.countP_singleton,
      Bool.false_eq_true, if_false]
    omega
  | notify u hstored =>
    have hwake := s.waiter.distance_wake_le
    simp only [hstored, Holder.distance, Label.ofWaiter, List.countP_singleton,
      Bool.false_eq_true, if_false]
    split_ifs <;> omega
  | leave u hleaving =>
    simp only [hleaving, Holder.distance, Label.ofWaiter, List.countP_singleton,
      Bool.false_eq_true, if_false]
    omega
  | wait houtside _ => exact absurd houtside hwaits
  | sleep _ hnot => exact absurd (hnot.symm.trans hready) (by decide)
  | pass hplace _ | spurious hplace | act hplace =>
    simp only [hplace, Waiter.distance, Holder.distance, Label.ofWaiter, List.countP_singleton,
      if_true]
    omega
  | relock hwoken hfree =>
    simp only [hwoken, hfree, Waiter.distance, Holder.distance, Label.ofWaiter,
      List.countP_singleton, if_true]
    omega

/-- As long as the waiter has not acted, it stays in the monitor with its predicate true. -/
theorem Run.stays {spec : Spec σ υ ρ} (hstable : spec.Stable) {s t : State σ υ}
    {labels : List (Label υ ρ)} (hrun : Run spec s labels t)
    (hquiet : ∀ r, .act r ∉ labels) (hwaits : s.waiter ≠ .outside)
    (hready : spec.ready s.shared = true) :
    t.waiter ≠ .outside ∧ spec.ready t.shared = true := by
  induction hrun with
  | nil => exact ⟨hwaits, hready⟩
  | concat hrun hstep ih =>
    obtain ⟨hwaits', hready'⟩ := ih fun r hmem => hquiet r (List.mem_append_left _ hmem)
    cases hstep with
    | enter _ _ | leave _ _ => exact ⟨hwaits', hready'⟩
    | store u _ => exact ⟨hwaits', hstable u _ hready'⟩
    | notify u _ =>
      refine ⟨?_, hready'⟩
      dsimp only
      split_ifs
      · exact (not_congr (Waiter.wake_eq_iff (by decide) (by decide))).mpr hwaits'
      · exact hwaits'
    | wait houtside _ => exact absurd houtside hwaits'
    | pass _ _ | sleep _ _ | spurious _ | relock _ _ => exact ⟨by simp, hready'⟩
    | act _ => exact absurd (List.mem_append_right _ (List.mem_singleton_self _)) (hquiet _)

/-- So until the waiter has acted there are only so many steps, and only so many of its own. -/
theorem Run.length_le {spec : Spec σ υ ρ} (hstable : spec.Stable) {s t : State σ υ}
    {labels : List (Label υ ρ)} (hrun : Run spec s labels t)
    (hquiet : ∀ r, .act r ∉ labels) (hwaits : s.waiter ≠ .outside)
    (hready : spec.ready s.shared = true) :
    labels.length + t.distance ≤ s.distance + 4 * labels.countP Label.comes ∧
      labels.countP Label.ofWaiter + t.waiter.distance ≤ s.waiter.distance := by
  induction hrun with
  | nil => exact ⟨by simp, by simp⟩
  | concat hrun hstep ih =>
    have hbefore := fun r hmem => hquiet r (List.mem_append_left _ hmem)
    obtain ⟨hle, hwaiter⟩ := ih hbefore
    obtain ⟨hwaits', hready'⟩ := hrun.stays hstable hbefore hwaits hready
    obtain ⟨hle', hwaiter'⟩ := hstep.closer hwaits' hready'
    rw [List.length_append, List.length_singleton, List.countP_append, List.countP_append]
    omega

/-- **No wakeup is lost.** A waiter whose predicate holds is never stuck: a step is due, by the
caller that is inside or, if there is none, by the waiter. -/
theorem Inv.not_stuck {spec : Spec σ υ ρ} {s : State σ υ} (h : Inv spec s)
    (hwaits : s.waiter ≠ .outside) (hready : spec.ready s.shared = true) :
    ∃ (label : Label υ ρ) (t : State σ υ), label.Due ∧ Step spec s label t ∧
      (s.holder = .free ∨ s.holder = .waiter → label.ofWaiter = true) := by
  cases hholder : s.holder with
  | entered u => exact ⟨.store u, _, trivial, .store s u hholder, by simp⟩
  | stored u => exact ⟨.notify u, _, trivial, .notify s u hholder, by simp⟩
  | leaving u => exact ⟨.leave u, _, trivial, .leave s u hholder, by simp⟩
  | waiter =>
    rcases h.holds_iff.mp hholder with hchecking | hacting
    · exact ⟨.inner, _, trivial, .pass s hchecking hready, fun _ => rfl⟩
    · exact ⟨.act _, _, trivial, .act s hacting, fun _ => rfl⟩
  | free =>
    obtain ⟨hchecking, hacting⟩ := h.not_holds (by simp [hholder])
    cases hwaiter : s.waiter with
    | outside => exact absurd hwaiter hwaits
    | checking => exact absurd hwaiter hchecking
    | acting => exact absurd hwaiter hacting
    | woken => exact ⟨.inner, _, trivial, .relock s hwaiter hholder, fun _ => rfl⟩
    | asleep =>
      obtain ⟨u, hstored, -⟩ := h.due hwaiter hready
      simp [hholder] at hstored

/-- **A waiter whose predicate holds acts.** Until it has, there are fewer than seven steps and four
for each caller that comes, fewer than four of them by the waiter, and a step is due. -/
theorem Inv.waiter_acts {spec : Spec σ υ ρ} (hsilent : spec.SilentKeeps) (hstable : spec.Stable)
    {s t : State σ υ} {labels : List (Label υ ρ)} (h : Inv spec s) (hwaits : s.waiter ≠ .outside)
    (hready : spec.ready s.shared = true) (hrun : Run spec s labels t)
    (hquiet : ∀ r, .act r ∉ labels) :
    labels.length < 7 + 4 * labels.countP Label.comes ∧ labels.countP Label.ofWaiter < 4 ∧
      ∃ (label : Label υ ρ) (w : State σ υ), label.Due ∧ Step spec t label w ∧
        (t.holder = .free ∨ t.holder = .waiter → label.ofWaiter = true) := by
  obtain ⟨hlength, hown⟩ := hrun.length_le hstable hquiet hwaits hready
  obtain ⟨hwaits', hready'⟩ := hrun.stays hstable hquiet hwaits hready
  have hway := Waiter.distance_pos hwaits'
  have hbound := s.distance_le
  have hfurthest := s.waiter.distance_le
  refine ⟨?_, by omega, (h.run hsilent hrun).not_stuck hwaits' hready'⟩
  unfold State.distance at hlength hbound
  omega

end Monitor
