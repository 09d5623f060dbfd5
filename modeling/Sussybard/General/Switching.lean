import Mathlib.Data.Finset.Card
import Mathlib.Data.Finset.Option

/-!
# Streams of on and off switches

A stream of switches turns keys on and off; replaying it gives the set of keys
that are on. Two disciplines of such streams are described. In a `Clean` stream
no key is switched on twice and at most `limit` keys are ever on. In an
alternating stream every key is switched off again before the next goes on.
-/

namespace Switching

/-- A switch of one key. -/
structure Switch (κ : Type*) where
  /-- Whether the key is switched on rather than off. -/
  on : Bool
  /-- The key that is switched. -/
  key : κ
  deriving DecidableEq, Repr

variable {κ : Type*}

section Active

variable [DecidableEq κ]

/-- The effect of one switch on the set of keys that are on. -/
def Switch.apply (S : Finset κ) (s : Switch κ) : Finset κ :=
  if s.on then insert s.key S else S.erase s.key

/-- The keys that are on after a stream of switches. -/
def active (S : Finset κ) (stream : List (Switch κ)) : Finset κ := stream.foldl Switch.apply S

@[simp] theorem active_nil (S : Finset κ) : active S [] = S := rfl

@[simp] theorem active_cons (S : Finset κ) (s : Switch κ) (stream : List (Switch κ)) :
    active S (s :: stream) = active (s.apply S) stream := rfl

/-- Replaying a concatenation replays its second part from the keys left on by the first. -/
theorem active_append (S : Finset κ) (xs ys : List (Switch κ)) :
    active S (xs ++ ys) = active (active S xs) ys := by
  simp [active, List.foldl_append]

/-- A stream in which no key is switched on while it is on, and at most `limit` keys
are on at any time. -/
def Clean (limit : ℕ) (S : Finset κ) : List (Switch κ) → Prop
  | [] => S.card ≤ limit
  | s :: stream => S.card ≤ limit ∧ (s.on = true → s.key ∉ S) ∧ Clean limit (s.apply S) stream

/-- A stream is clean when both its parts are, the second from where the first ends. -/
theorem Clean.append {limit : ℕ} {S : Finset κ} {xs ys : List (Switch κ)}
    (hx : Clean limit S xs) (hy : Clean limit (active S xs) ys) : Clean limit S (xs ++ ys) := by
  induction xs generalizing S with
  | nil => exact hy
  | cons s xs ih => exact ⟨hx.1, hx.2.1, ih hx.2.2 hy⟩

/-- Every prefix of a clean stream respects the limit. -/
theorem Clean.card_le {limit : ℕ} {S : Finset κ} {xs ys : List (Switch κ)}
    (h : Clean limit S (xs ++ ys)) : (active S xs).card ≤ limit := by
  induction xs generalizing S with
  | nil =>
    cases ys with
    | nil => exact h
    | cons _ _ => exact h.1
  | cons s xs ih => exact ih h.2.2

/-- A clean stream switches on only keys that are off. -/
theorem Clean.key_notMem {limit : ℕ} {S : Finset κ} {xs ys : List (Switch κ)} {s : Switch κ}
    (h : Clean limit S (xs ++ s :: ys)) (hon : s.on = true) : s.key ∉ active S xs := by
  induction xs generalizing S with
  | nil => exact h.2.1 hon
  | cons _ xs ih => exact ih h.2.2

/-- The keys that a stream switches off. -/
def released (stream : List (Switch κ)) : Finset κ :=
  ((stream.filter fun s => !s.on).map Switch.key).toFinset

/-- They are those of its switches that are off. -/
theorem mem_released {stream : List (Switch κ)} {k : κ} :
    k ∈ released stream ↔ ∃ s ∈ stream, s.on = false ∧ s.key = k := by
  simp [released, and_assoc]

/-- Keys that are on in excess stay the only ones. -/
theorem active_subset_union {A B R : Finset κ} (h : A ⊆ B ∪ R) (stream : List (Switch κ)) :
    active A stream ⊆ active B stream ∪ R := by
  induction stream generalizing A B with
  | nil => exact h
  | cons s stream ih =>
    refine ih fun k hk => ?_
    unfold Switch.apply at hk ⊢
    by_cases hon : s.on
    · rw [if_pos hon, Finset.mem_insert] at hk
      rw [if_pos hon, Finset.insert_union, Finset.mem_insert]
      exact hk.imp_right fun hk => h hk
    · rw [if_neg hon, Finset.mem_erase] at hk
      rw [if_neg hon, Finset.mem_union, Finset.mem_erase]
      exact (Finset.mem_union.mp (h hk.2)).imp_left fun hB => ⟨hk.1, hB⟩

/-- A key that a stream turns off is one that it releases. -/
theorem subset_active_union (A : Finset κ) (stream : List (Switch κ)) :
    A ⊆ active A stream ∪ released stream := by
  induction stream generalizing A with
  | nil => exact Finset.subset_union_left
  | cons s stream ih =>
    intro k hk
    by_cases hreleased : s.on = false ∧ s.key = k
    · exact Finset.mem_union_right _ (mem_released.mpr ⟨s, List.mem_cons_self, hreleased⟩)
    · have hkept : k ∈ s.apply A := by
        unfold Switch.apply
        cases hon : s.on with
        | true => exact Finset.mem_insert_of_mem hk
        | false =>
          have hne : k ≠ s.key := fun heq => hreleased ⟨hon, heq.symm⟩
          exact Finset.mem_erase.mpr ⟨hne, hk⟩
      rcases Finset.mem_union.mp (ih _ hkept) with hactive | hlater
      · exact Finset.mem_union_left _ hactive
      · obtain ⟨t, ht, hoff⟩ := mem_released.mp hlater
        exact Finset.mem_union_right _ (mem_released.mpr ⟨t, List.mem_cons_of_mem _ ht, hoff⟩)

/-- **What arrives of a stream leaves on no more than what was lost of it explains.** When each
part of a stream arrives only up to some place, a key that is on at the end is on at the end of
the whole stream, or one of its releases was lost. -/
theorem active_arrived_subset {A B : Finset κ} (h : A ⊆ B)
    (parts : List (List (Switch κ) × List (Switch κ))) :
    active A (parts.flatMap Prod.fst) ⊆
      active B (parts.flatMap fun part => part.1 ++ part.2) ∪
        released (parts.flatMap Prod.snd) := by
  suffices hgeneral : ∀ R, A ⊆ B ∪ R → active A (parts.flatMap Prod.fst) ⊆
      active B (parts.flatMap fun part => part.1 ++ part.2) ∪
        (R ∪ released (parts.flatMap Prod.snd)) by
    have hempty := hgeneral ∅ (h.trans Finset.subset_union_left)
    rwa [Finset.empty_union] at hempty
  clear h
  induction parts generalizing A B with
  | nil => exact fun R hR => hR.trans (Finset.union_subset_union_right Finset.subset_union_left)
  | cons part parts ih =>
    intro R hR
    have harrived := active_subset_union hR part.1
    have hlost := subset_active_union (active B part.1) part.2
    have hnext : active A part.1 ⊆ active B (part.1 ++ part.2) ∪ (R ∪ released part.2) := by
      rw [active_append]
      intro k hk
      rcases Finset.mem_union.mp (harrived hk) with hB | hR
      · rcases Finset.mem_union.mp (hlost hB) with hactive | hreleased
        · exact Finset.mem_union_left _ hactive
        · exact Finset.mem_union_right _ (Finset.mem_union_right _ hreleased)
      · exact Finset.mem_union_right _ (Finset.mem_union_left _ hR)
    have hrest := ih _ hnext
    rw [List.flatMap_cons, List.flatMap_cons, List.flatMap_cons, active_append, active_append]
    refine hrest.trans (Finset.union_subset_union_right fun k hk => ?_)
    simp only [Finset.mem_union, mem_released, List.mem_append] at hk ⊢
    rcases hk with (hR | ⟨s, hs, hoff⟩) | ⟨s, hs, hoff⟩
    · exact Or.inl hR
    · exact Or.inr ⟨s, Or.inl hs, hoff⟩
    · exact Or.inr ⟨s, Or.inr hs, hoff⟩

end Active

/-- An alternating stream from one key or none being on, to one key or none being on:
a key goes on only when all are off, and only the key that is on goes off. -/
inductive Alternates : Option κ → List (Switch κ) → Option κ → Prop
  | nil (down : Option κ) : Alternates down [] down
  | press {k : κ} {stream : List (Switch κ)} {down : Option κ} :
      Alternates (some k) stream down → Alternates none (⟨true, k⟩ :: stream) down
  | release {k : κ} {stream : List (Switch κ)} {down : Option κ} :
      Alternates none stream down → Alternates (some k) (⟨false, k⟩ :: stream) down

/-- Alternating streams compose. -/
theorem Alternates.append {a b c : Option κ} {xs ys : List (Switch κ)}
    (hx : Alternates a xs b) (hy : Alternates b ys c) : Alternates a (xs ++ ys) c := by
  induction hx with
  | nil _ => exact hy
  | press _ ih => exact .press (ih hy)
  | release _ ih => exact .release (ih hy)

/-- Renaming the keys of an alternating stream keeps it alternating, even when the
renaming identifies keys. -/
theorem Alternates.map {ν : Type*} (f : κ → ν) {a b : Option κ} {stream : List (Switch κ)}
    (h : Alternates a stream b) :
    Alternates (a.map f) (stream.map fun s => ⟨s.on, f s.key⟩) (b.map f) := by
  induction h with
  | nil _ => exact .nil _
  | press _ ih => exact .press ih
  | release _ ih => exact .release ih

/-- A stream that alternates, together with the press of the key it starts from, is a
sequence of pairs that switch one key on and off again, and the press of the key it ends with. -/
theorem Alternates.eq_pairs {a b : Option κ} {stream : List (Switch κ)}
    (h : Alternates a stream b) :
    ∃ keys : List κ, a.toList.map (⟨true, ·⟩) ++ stream =
      (keys.flatMap fun k => [⟨true, k⟩, ⟨false, k⟩]) ++ b.toList.map (⟨true, ·⟩) := by
  induction h with
  | nil _ => exact ⟨[], by simp⟩
  | press _ ih =>
    obtain ⟨keys, hkeys⟩ := ih
    exact ⟨keys, by simpa using hkeys⟩
  | @release k stream down _ ih =>
    obtain ⟨keys, hkeys⟩ := ih
    refine ⟨k :: keys, ?_⟩
    simpa using hkeys

/-- Replaying an alternating stream leaves on exactly the key it ends with. -/
theorem Alternates.active_eq [DecidableEq κ] {a b : Option κ} {stream : List (Switch κ)}
    (h : Alternates a stream b) : active a.toFinset stream = b.toFinset := by
  induction h with
  | nil _ => rfl
  | press _ ih => simpa [Switch.apply] using ih
  | release _ ih => simpa [Switch.apply] using ih

/-- In an alternating stream a key goes on only when nothing is on, and goes off only
when it alone is on. -/
theorem Alternates.active_before [DecidableEq κ] {a b : Option κ} {xs ys : List (Switch κ)}
    {s : Switch κ} (h : Alternates a (xs ++ s :: ys) b) :
    active a.toFinset xs = if s.on then ∅ else {s.key} := by
  induction xs generalizing a with
  | nil => cases h <;> simp
  | cons x xs ih =>
    cases h with
    | press h => simpa [Switch.apply] using ih h
    | release h => simpa [Switch.apply] using ih h

end Switching
