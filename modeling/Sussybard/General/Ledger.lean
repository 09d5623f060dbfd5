import Mathlib.Data.Finset.Lattice.Lemmas
import Mathlib.Data.Finset.Basic

/-!
# A ledger of resources

A program acquires resources, uses them and releases them. The ledger says which
are held after a trace of such events, and fails where one is acquired twice,
used or released while it is not held, or released before one that it has to
outlive. A program that is built from scopes, each of which acquires, runs a body
and releases, is judged scope by scope.
-/

namespace Ledger

/-- What happens to a resource. -/
inductive Event (ρ : Type*) where
  | acquire (r : ρ)
  | use (r : ρ)
  | release (r : ρ)
  deriving DecidableEq, Repr

variable {ρ : Type*}

/-- The resource of an event. -/
def Event.resource : Event ρ → ρ
  | .acquire r | .use r | .release r => r

variable [DecidableEq ρ] (outlives : ρ → ρ → Bool)

/-- What is held after an event, unless it is a misuse. -/
def step (held : Finset ρ) : Event ρ → Option (Finset ρ)
  | .acquire r => if r ∈ held then none else some (insert r held)
  | .use r => if r ∈ held then some held else none
  | .release r => if r ∈ held ∧ ∀ s ∈ held, outlives r s = false then some (held.erase r) else none

/-- What is held after a trace, unless there is a misuse. -/
def after (held : Finset ρ) : List (Event ρ) → Option (Finset ρ)
  | [] => some held
  | e :: events => (step outlives held e).bind fun held => after held events

@[simp] theorem after_nil (held : Finset ρ) : after outlives held [] = some held := rfl

/-- One trace after another. -/
theorem after_append (held : Finset ρ) (xs ys : List (Event ρ)) :
    after outlives held (xs ++ ys) =
      (after outlives held xs).bind fun held => after outlives held ys := by
  induction xs generalizing held with
  | nil => rfl
  | cons e xs ih => simp only [List.cons_append, after, ih, Option.bind_assoc]

variable {outlives}

/-- A trace goes on from where its first part ends. -/
theorem after_trans {held mid final : Finset ρ} {xs ys : List (Event ρ)}
    (hxs : after outlives held xs = some mid) (hys : after outlives mid ys = some final) :
    after outlives held (xs ++ ys) = some final := by
  rw [after_append, hxs, Option.bind_some, hys]

/-- All that happens is that resources of these are used. -/
def OnlyUses (held : Finset ρ) (events : List (Event ρ)) : Prop :=
  ∀ e ∈ events, ∃ r ∈ held, e = .use r

omit [DecidableEq ρ] in
@[simp] theorem onlyUses_nil (held : Finset ρ) : OnlyUses held [] := by simp [OnlyUses]

omit [DecidableEq ρ] in
@[simp] theorem onlyUses_cons {held : Finset ρ} {e : Event ρ} {events : List (Event ρ)} :
    OnlyUses held (e :: events) ↔ (∃ r ∈ held, e = .use r) ∧ OnlyUses held events :=
  List.forall_mem_cons

omit [DecidableEq ρ] in
@[simp] theorem onlyUses_append {held : Finset ρ} {xs ys : List (Event ρ)} :
    OnlyUses held (xs ++ ys) ↔ OnlyUses held xs ∧ OnlyUses held ys := List.forall_mem_append

omit [DecidableEq ρ] in
/-- What uses resources does so when more are held. -/
theorem OnlyUses.mono {held held' : Finset ρ} {events : List (Event ρ)} (h : OnlyUses held events)
    (hsubset : held ⊆ held') : OnlyUses held' events := by
  intro e he
  obtain ⟨r, hr, rfl⟩ := h e he
  exact ⟨r, hsubset hr, rfl⟩

/-- Uses of what is held change nothing. -/
theorem OnlyUses.after_eq {held : Finset ρ} {events : List (Event ρ)}
    (h : OnlyUses held events) : after outlives held events = some held := by
  induction events with
  | nil => rfl
  | cons e events ih =>
    obtain ⟨⟨r, hr, rfl⟩, hrest⟩ := onlyUses_cons.mp h
    rw [after, step, if_pos hr, Option.bind_some]
    exact ih hrest

/-- What is not held can be acquired. -/
theorem after_acquire {held : Finset ρ} {r : ρ} (hfree : r ∉ held) :
    after outlives held [.acquire r] = some (insert r held) := by
  rw [after, step, if_neg hfree, Option.bind_some, after_nil]

/-- What is held can be released when it has to outlive nothing that is held. -/
theorem after_release {held : Finset ρ} {r : ρ} (hfree : r ∉ held)
    (hlast : ∀ s ∈ insert r held, outlives r s = false) :
    after outlives (insert r held) [.release r] = some held := by
  rw [after, step, if_pos ⟨Finset.mem_insert_self r held, hlast⟩, Option.bind_some, after_nil,
    Finset.erase_insert hfree]

/-- No resource of the region is one of the frame, or has to outlive one of the frame. -/
def Apart (outlives : ρ → ρ → Bool) (region frame : Finset ρ) : Prop :=
  ∀ r ∈ region, r ∉ frame ∧ ∀ s ∈ frame, outlives r s = false

instance (region frame : Finset ρ) : Decidable (Apart outlives region frame) :=
  inferInstanceAs (Decidable (∀ r ∈ region, r ∉ frame ∧ ∀ s ∈ frame, outlives r s = false))

/-- What is apart from two frames is apart from both together. -/
theorem Apart.union {region frame frame' : Finset ρ} (h : Apart outlives region frame)
    (h' : Apart outlives region frame') : Apart outlives region (frame ∪ frame') := by
  intro r hr
  refine ⟨fun hmem => ?_, fun s hs => ?_⟩
  · exact (Finset.mem_union.mp hmem).elim (h r hr).1 (h' r hr).1
  · exact (Finset.mem_union.mp hs).elim ((h r hr).2 s) ((h' r hr).2 s)

omit [DecidableEq ρ] in
/-- What is apart from a frame is apart from its parts. -/
theorem Apart.mono {region frame frame' : Finset ρ} (h : Apart outlives region frame)
    (hsubset : frame' ⊆ frame) : Apart outlives region frame' := by
  intro r hr
  exact ⟨fun hmem => (h r hr).1 (hsubset hmem), fun s hs => (h r hr).2 s (hsubset hs)⟩

/-- **The frame rule.** A trace does the same while other resources are held, if all that it has to
do with is apart from them. -/
theorem after_frame {held final region frame : Finset ρ} {events : List (Event ρ)}
    (hafter : after outlives held events = some final)
    (hregion : ∀ e ∈ events, e.resource ∈ region) (hapart : Apart outlives region frame) :
    after outlives (held ∪ frame) events = some (final ∪ frame) := by
  induction events generalizing held with
  | nil =>
    obtain rfl := Option.some.inj hafter
    rfl
  | cons e events ih =>
    obtain ⟨next, hstep, hrest⟩ := Option.bind_eq_some_iff.mp hafter
    have hframed : step outlives (held ∪ frame) e = some (next ∪ frame) := by
      obtain ⟨hmem, houtlives⟩ := hapart e.resource (hregion e List.mem_cons_self)
      cases e with
      | acquire r =>
        obtain ⟨hr, hnext⟩ := Option.ite_none_left_eq_some.mp hstep
        obtain rfl := Option.some.inj hnext
        have hnot : r ∉ held ∪ frame := fun h => (Finset.mem_union.mp h).elim hr hmem
        rw [step, if_neg hnot, Finset.insert_union]
      | use r =>
        obtain ⟨hr, hnext⟩ := Option.ite_none_right_eq_some.mp hstep
        obtain rfl := Option.some.inj hnext
        rw [step, if_pos (Finset.mem_union_left _ hr)]
      | release r =>
        obtain ⟨⟨hr, hlast⟩, hnext⟩ := Option.ite_none_right_eq_some.mp hstep
        obtain rfl := Option.some.inj hnext
        have hall : r ∈ held ∪ frame ∧ ∀ s ∈ held ∪ frame, outlives r s = false :=
          ⟨Finset.mem_union_left _ hr, fun s hs =>
            (Finset.mem_union.mp hs).elim (hlast s) (houtlives s)⟩
        have hkeep : frame.erase r = frame := Finset.erase_eq_of_notMem hmem
        rw [step, if_pos hall, Finset.erase_union_distrib, hkeep]
    rw [after, hframed, Option.bind_some]
    exact ih hrest fun e he => hregion e (List.mem_cons_of_mem _ he)

/-! ### Programs -/

/-- How a program ends. -/
inductive Ending where
  /-- Its main function returns a status, and what it has set up is destroyed. -/
  | returns (status : ℕ)
  /-- It ends at once with a status. -/
  | exits (status : ℕ)
  /-- It does not. -/
  | blocks
  deriving DecidableEq, Repr

/-- What a program does to its resources, and how it ends. -/
structure Trace (ρ : Type*) where
  /-- The events, in order. -/
  events : List (Event ρ)
  /-- The end. -/
  ending : Ending
  deriving DecidableEq, Repr

/-- A program that does something before. -/
def Trace.following (t : Trace ρ) (before : List (Event ρ)) : Trace ρ :=
  { t with events := before ++ t.events }

/-- A program in whose scope something is set up, which is destroyed when it returns. -/
def Trace.guarded (t : Trace ρ) (setup destroy : List (Event ρ)) : Trace ρ where
  events := setup ++ t.events ++ match t.ending with
    | .returns _ => destroy
    | .exits _ | .blocks => []
  ending := t.ending

/-- A program misuses nothing, and when it has returned a status, it holds what it held before and
something that it may leave with that status. -/
def Trace.Leaves (outlives : ρ → ρ → Bool) (t : Trace ρ) (held : Finset ρ)
    (left : ℕ → Finset ρ → Prop) : Prop :=
  ∃ final, after outlives held t.events = some final ∧
    ∀ status, t.ending = .returns status → ∃ rest, left status rest ∧ final = held ∪ rest

variable {t : Trace ρ} {held : Finset ρ} {left : ℕ → Finset ρ → Prop}

/-- A program that has returned nothing has left nothing. -/
theorem Trace.leaves_returns {status : ℕ} (hleft : left status ∅) :
    (⟨[], .returns status⟩ : Trace ρ).Leaves outlives held left := by
  refine ⟨held, rfl, fun status' hstatus => ⟨∅, ?_, (Finset.union_empty held).symm⟩⟩
  obtain rfl := Ending.returns.inj hstatus
  exact hleft

/-- A program that does not return leaves nothing. -/
theorem Trace.leaves_of_after {events : List (Event ρ)} {ending : Ending} {final : Finset ρ}
    (hafter : after outlives held events = some final)
    (hending : ∀ status, ending ≠ .returns status) :
    (⟨events, ending⟩ : Trace ρ).Leaves outlives held left :=
  ⟨final, hafter, fun status hstatus => absurd hstatus (hending status)⟩

/-- What is released again before a program does not matter to it. -/
theorem Trace.Leaves.following {before : List (Event ρ)} (h : t.Leaves outlives held left)
    (hbefore : after outlives held before = some held) :
    (t.following before).Leaves outlives held left := by
  obtain ⟨final, hafter, hleft⟩ := h
  exact ⟨final, after_trans hbefore hafter, hleft⟩

/-- **The rule of scopes.** Whatever the body of a scope may leave is destroyed after it. -/
theorem Trace.Leaves.guarded {inside : Finset ρ} {inner : ℕ → Finset ρ → Prop}
    {setup destroy : List (Event ρ)} (h : t.Leaves outlives inside inner)
    (hsetup : after outlives held setup = some inside)
    (hdestroy : ∀ status rest, inner status rest → ∃ rest', left status rest' ∧
      after outlives (inside ∪ rest) destroy = some (held ∪ rest')) :
    (t.guarded setup destroy).Leaves outlives held left := by
  obtain ⟨final, hafter, hinner⟩ := h
  have hbody := after_trans hsetup hafter
  cases hending : t.ending with
  | returns status =>
    obtain ⟨rest, hrest, rfl⟩ := hinner status hending
    obtain ⟨rest', hrest', hdestroyed⟩ := hdestroy status rest hrest
    refine ⟨held ∪ rest', ?_, fun status' hstatus => ⟨rest', ?_, rfl⟩⟩
    · rw [Trace.guarded, hending]
      exact after_trans hbody hdestroyed
    · obtain rfl : status = status' := Ending.returns.inj (hending.symm.trans hstatus)
      exact hrest'
  | exits status =>
    rw [Trace.guarded, hending, List.append_nil]
    exact Trace.leaves_of_after hbody (by simp)
  | blocks =>
    rw [Trace.guarded, hending, List.append_nil]
    exact Trace.leaves_of_after hbody (by simp)

/-! ### Objects -/

/-- An object: whether its setup succeeds, what that does, and what its destructor does
afterwards, which runs in either case. -/
structure Setup (ρ : Type*) where
  /-- The setup succeeds. -/
  ok : Bool
  /-- What the setup does. -/
  events : List (Event ρ)
  /-- What the destructor does. -/
  destroy : List (Event ρ)
  deriving DecidableEq, Repr

/-- A null pointer instead of an object. -/
def Setup.absent : Setup ρ := ⟨true, [], []⟩

/-- A program returns a status when an object cannot be set up, and otherwise goes on. -/
def Setup.scope (s : Setup ρ) (failure : ℕ) (body : Trace ρ) : Trace ρ :=
  (if s.ok then body else ⟨[], .returns failure⟩).guarded s.events s.destroy

/-- The object has to do with a region only, a setup that succeeds acquires what is needed, and the
destructor releases what the setup has acquired, but for what is kept. -/
structure Setup.Balanced (outlives : ρ → ρ → Bool) (s : Setup ρ) (region needed kept : Finset ρ) :
    Prop where
  /-- What the setup acquires is released. -/
  released : ∃ own ∈ after outlives ∅ s.events, own ⊆ region ∧ (s.ok = true → needed ⊆ own) ∧
    ∃ rest ∈ after outlives own s.destroy, rest ⊆ kept
  /-- The setup keeps to the region. -/
  events_mem : ∀ e ∈ s.events, e.resource ∈ region
  /-- So does the destructor. -/
  destroy_mem : ∀ e ∈ s.destroy, e.resource ∈ region

instance (s : Setup ρ) (region needed kept : Finset ρ) :
    Decidable (s.Balanced outlives region needed kept) :=
  decidable_of_iff
    ((∃ own ∈ after outlives ∅ s.events, own ⊆ region ∧ (s.ok = true → needed ⊆ own) ∧
        ∃ rest ∈ after outlives own s.destroy, rest ⊆ kept) ∧
      (∀ e ∈ s.events, e.resource ∈ region) ∧ ∀ e ∈ s.destroy, e.resource ∈ region)
    ⟨fun h => ⟨h.1, h.2.1, h.2.2⟩, fun h => ⟨h.released, h.events_mem, h.destroy_mem⟩⟩

/-- Nothing is needed of an object that is not there. -/
theorem Setup.absent_balanced (region kept : Finset ρ) :
    (Setup.absent : Setup ρ).Balanced outlives region ∅ kept where
  released := ⟨∅, rfl, Finset.empty_subset _, fun _ => Finset.empty_subset _, ∅, rfl,
    Finset.empty_subset _⟩
  events_mem := by simp [Setup.absent]
  destroy_mem := by simp [Setup.absent]

/-- Nothing is needed of an object whose setup fails. -/
theorem Setup.Balanced.of_failed {s : Setup ρ} {region needed kept : Finset ρ}
    (hfailed : s.ok = false) (h : s.Balanced outlives region ∅ kept) :
    s.Balanced outlives region needed kept where
  released := by
    obtain ⟨own, hinit, hown, -, hdestroy⟩ := h.released
    exact ⟨own, hinit, hown, fun hok => absurd (hok.symm.trans hfailed) (by decide), hdestroy⟩
  events_mem := h.events_mem
  destroy_mem := h.destroy_mem

/-- **The rule of objects.** A program with a balanced object may leave what its body may leave,
and what the object keeps. -/
theorem Setup.Balanced.leaves {s : Setup ρ} {region needed kept : Finset ρ}
    {inner : ℕ → Finset ρ → Prop} {failure : ℕ}
    (h : s.Balanced outlives region needed kept) (hheld : Apart outlives region held)
    (hinner : ∀ status rest, inner status rest → Apart outlives region rest)
    (hkept : ∀ status rest, inner status rest → ∀ own ⊆ kept, left status (own ∪ rest))
    (hfailure : inner failure ∅)
    (hbody : s.ok = true → ∀ own, own ⊆ region → needed ⊆ own →
      t.Leaves outlives (held ∪ own) inner) :
    (s.scope failure t).Leaves outlives held left := by
  obtain ⟨own, hinit, hown, hneeded, own', hdestroy, hown'⟩ := h.released
  have hinside : after outlives held s.events = some (held ∪ own) := by
    have hframed := after_frame hinit h.events_mem hheld
    rwa [Finset.empty_union, Finset.union_comm] at hframed
  have hafter : ∀ status rest, inner status rest → ∃ rest', left status rest' ∧
      after outlives (held ∪ own ∪ rest) s.destroy = some (held ∪ rest') := by
    intro status rest hrest
    refine ⟨own' ∪ rest, hkept status rest hrest own' hown', ?_⟩
    have hframed := after_frame hdestroy h.destroy_mem (hheld.union (hinner status rest hrest))
    rwa [← Finset.union_assoc, Finset.union_comm own, Finset.union_left_comm] at hframed
  unfold Setup.scope
  cases hok : s.ok with
  | true => exact (hbody hok own hown (hneeded hok)).guarded hinside hafter
  | false => exact (Trace.leaves_returns hfailure).guarded hinside hafter

/-! ### Calls -/

/-- One of the calls of a setup, which gives up when a call fails. -/
structure Call (ρ : Type*) where
  /-- What is done in any case. -/
  tried : List (Event ρ)
  /-- The call succeeds. -/
  ok : Bool
  /-- What is done when it does. -/
  done : List (Event ρ)

/-- What a call does, whether it succeeds or not. -/
def Call.shape (c : Call ρ) : List (Event ρ) × List (Event ρ) := (c.tried, c.done)

/-- Calls one after another, up to the first that fails: whether none does, and what happens. -/
def runCalls : List (Call ρ) → Bool × List (Event ρ)
  | [] => (true, [])
  | c :: cs =>
    if c.ok then ((runCalls cs).1, c.tried ++ c.done ++ (runCalls cs).2) else (false, c.tried)

/-- All the results that calls of these shapes can have. -/
def callOutcomes : List (List (Event ρ) × List (Event ρ)) → List (Bool × List (Event ρ))
  | [] => [(true, [])]
  | (tried, done) :: shapes =>
    (false, tried) :: (callOutcomes shapes).map fun r => (r.1, tried ++ done ++ r.2)

omit [DecidableEq ρ] in
/-- A setup succeeds when all its calls do. -/
theorem runCalls_fst (calls : List (Call ρ)) : (runCalls calls).1 = calls.all Call.ok := by
  induction calls with
  | nil => rfl
  | cons c cs ih =>
    rw [runCalls, List.all_cons]
    split_ifs with hok
    · rw [ih, hok, Bool.true_and]
    · rw [Bool.not_eq_true] at hok
      rw [hok, Bool.false_and]

omit [DecidableEq ρ] in
/-- The result of calls is one of those that they can have. -/
theorem runCalls_mem (calls : List (Call ρ)) :
    runCalls calls ∈ callOutcomes (calls.map Call.shape) := by
  induction calls with
  | nil => simp [runCalls, callOutcomes]
  | cons c cs ih =>
    rw [List.map_cons, Call.shape, callOutcomes, runCalls]
    split_ifs
    · exact List.mem_cons_of_mem _ (List.mem_map_of_mem ih)
    · exact List.mem_cons_self

/-- What is acquired among some events. -/
def acquired : List (Event ρ) → List ρ
  | [] => []
  | .acquire r :: events => r :: acquired events
  | .use _ :: events | .release _ :: events => acquired events

/-- An object whose setup has a result and whose destructor does something for each of its
resources that was acquired, in this order. -/
def Setup.ofResult (result : Bool × List (Event ρ)) (order : List (ρ × List (Event ρ))) :
    Setup ρ where
  ok := result.1
  events := result.2
  destroy := (order.filter fun entry => entry.1 ∈ acquired result.2).flatMap Prod.snd

/-- An object whose setup makes calls. -/
def Setup.ofCalls (calls : List (Call ρ)) (order : List (ρ × List (Event ρ))) : Setup ρ :=
  .ofResult (runCalls calls) order

/-- An object is balanced if it is with all results that its calls can have. -/
theorem Setup.ofCalls_balanced {calls : List (Call ρ)}
    {shapes : List (List (Event ρ) × List (Event ρ))} {order : List (ρ × List (Event ρ))}
    {region needed kept : Finset ρ} (hshapes : calls.map Call.shape = shapes)
    (hall : ∀ result ∈ callOutcomes shapes,
      (Setup.ofResult result order).Balanced outlives region needed kept) :
    (Setup.ofCalls calls order).Balanced outlives region needed kept :=
  hall _ (hshapes ▸ runCalls_mem calls)

end Ledger
