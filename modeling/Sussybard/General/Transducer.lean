import Mathlib.Data.List.Forall2
import Mathlib.Data.List.Induction

/-!
# Runs of machines that emit outputs

A machine reads one input at a time, moves its state and emits a finite list of
outputs. Programs that handle an event stream are of this shape. The rules here
turn a fact about one step into a fact about every run: an invariant that
relates the state to everything emitted so far, the erasure of inputs that do
nothing, and the view that an observer has of part of the state and outputs.
-/

namespace Transducer

variable {σ τ ι ο ω : Type*}

/-- The run of a transition function over a list of inputs, with all outputs in order. -/
def exec (step : σ → ι → σ × List ο) (s : σ) : List ι → σ × List ο
  | [] => (s, [])
  | i :: is =>
      let (s', out) := step s i
      let (t, rest) := exec step s' is
      (t, out ++ rest)

@[simp] theorem exec_nil (step : σ → ι → σ × List ο) (s : σ) : exec step s [] = (s, []) := rfl

/-- The first input acts before the rest of the run. -/
theorem exec_cons (step : σ → ι → σ × List ο) (s : σ) (i : ι) (is : List ι) :
    exec step s (i :: is) =
      ((exec step (step s i).1 is).1, (step s i).2 ++ (exec step (step s i).1 is).2) := rfl

/-- A run over a concatenation continues from the state the first part reached. -/
theorem exec_append (step : σ → ι → σ × List ο) (s : σ) (is js : List ι) :
    exec step s (is ++ js) =
      ((exec step (exec step s is).1 js).1,
        (exec step s is).2 ++ (exec step (exec step s is).1 js).2) := by
  induction is generalizing s with
  | nil => simp
  | cons i is ih => simp only [List.cons_append, exec_cons, ih, List.append_assoc]

/-- The last input acts on the state and outputs of the run before it. -/
theorem exec_concat (step : σ → ι → σ × List ο) (s : σ) (is : List ι) (i : ι) :
    exec step s (is ++ [i]) =
      ((step (exec step s is).1 i).1, (exec step s is).2 ++ (step (exec step s is).1 i).2) := by
  rw [exec_append]
  simp [exec_cons]

/-- An invariant of the state and the outputs so far, kept by every step, holds after every run. -/
theorem exec_invariant {step : σ → ι → σ × List ο} (P : σ → List ο → Prop)
    (hstep : ∀ s out i, P s out → P (step s i).1 (out ++ (step s i).2)) {s : σ}
    (hstart : P s []) (is : List ι) : P (exec step s is).1 (exec step s is).2 := by
  induction is using List.reverseRecOn with
  | nil => exact hstart
  | append_singleton is i ih =>
    rw [exec_concat]
    exact hstep _ _ i ih

/-- Machines that move alike and emit related outputs in every step do so in every run. -/
theorem exec_forall₂ {step step' : σ → ι → σ × List ο} {R : ο → ο → Prop}
    (hmoves : ∀ s i, (step s i).1 = (step' s i).1)
    (hemits : ∀ s i, List.Forall₂ R (step s i).2 (step' s i).2) (s : σ) (is : List ι) :
    (exec step s is).1 = (exec step' s is).1 ∧
      List.Forall₂ R (exec step s is).2 (exec step' s is).2 := by
  induction is generalizing s with
  | nil => exact ⟨rfl, .nil⟩
  | cons i is ih =>
    obtain ⟨hstate, hrest⟩ := ih (step s i).1
    rw [exec_cons, exec_cons, ← hmoves]
    exact ⟨hstate, List.rel_append (hemits s i) hrest⟩

/-- Inputs that change nothing and emit nothing can be deleted from a run. -/
theorem exec_filter {step : σ → ι → σ × List ο} {p : ι → Bool}
    {I : σ → Prop} (hI : ∀ s i, I s → I (step s i).1)
    (hskip : ∀ s i, I s → p i = false → step s i = (s, [])) {s : σ} (hs : I s) (is : List ι) :
    exec step s is = exec step s (is.filter p) := by
  induction is generalizing s with
  | nil => rfl
  | cons i is ih =>
    cases hp : p i with
    | false =>
      rw [List.filter_cons_of_neg (by simp [hp]), exec_cons, hskip s i hs hp]
      exact ih hs
    | true =>
      rw [List.filter_cons_of_pos hp, exec_cons, exec_cons, ih (hI s i hs)]

/-- An input that does nothing the second time may be repeated at once anywhere in a run. -/
theorem exec_repeat {step : σ → ι → σ × List ο} {i : ι}
    (hrepeat : ∀ s, step (step s i).1 i = ((step s i).1, [])) (s : σ) (before after : List ι) :
    exec step s (before ++ i :: i :: after) = exec step s (before ++ i :: after) := by
  rw [exec_append, exec_append, exec_cons, exec_cons, exec_cons, hrepeat]
  rfl

/-- Inputs that bring a machine back to its state do so however often they are repeated. -/
theorem exec_replicate {step : σ → ι → σ × List ο} {s : σ} {is : List ι}
    (hloop : (exec step s is).1 = s) (n : ℕ) :
    exec step s (List.replicate n is).flatten =
      (s, (List.replicate n (exec step s is).2).flatten) := by
  induction n with
  | zero => rfl
  | succ n ih =>
    simp only [List.replicate_succ, List.flatten_cons, exec_append, hloop, ih]

/-- If one step of a machine, seen through a view of the state and of the outputs, is a
step of a second machine, then so is every run. -/
theorem exec_view {step : σ → ι → σ × List ο} {step' : τ → ι → τ × List ω}
    (view : σ → τ) (obs : List ο → List ω)
    (hnil : obs [] = []) (happ : ∀ a b, obs (a ++ b) = obs a ++ obs b)
    (hview : ∀ s i, (view (step s i).1, obs (step s i).2) = step' (view s) i)
    (s : σ) (is : List ι) :
    (view (exec step s is).1, obs (exec step s is).2) = exec step' (view s) is := by
  induction is generalizing s with
  | nil => simp [hnil]
  | cons i is ih => simp only [exec_cons, happ, ← hview, ← ih]

end Transducer
