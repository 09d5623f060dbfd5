import Sussybard.Wasapi

/-!
# Stopping the WASAPI backend

`WASAPI::stop` sets `dead` and the event and joins the audio thread. From there
the thread counts down to its end: it tests `dead` before it waits, and a wait
that it has begun ends with the event.
-/

namespace Sussybard

/-- The calls of `mix_samples` for a number of frames. -/
def chunkCount (frames : ℕ) : ℕ := (frames + 255) / 256

/-- A bound on the steps of the audio thread once it has been told to end. -/
def Runner.remaining (bufferFrames : ℕ) : Runner → ℕ
  | .done => 0
  | .reset => 1
  | .stop => 2
  | .test => 3
  | .release _ | .kickStart => 4
  | .kickRelease => 5
  | .kickGet => 6
  | .mix _ writeAvail => 5 + 2 * chunkCount writeAvail
  | .mixing _ writeAvail => 4 + 2 * chunkCount writeAvail
  | .getBuffer writeAvail => 6 + 2 * chunkCount writeAvail
  | .availTest frames => 7 + 2 * chunkCount frames
  | .avail | .recheck => 8 + 2 * chunkCount bufferFrames
  | .wait => 9 + 2 * chunkCount bufferFrames

/-- What the audio thread counts by is no more than the buffer holds, and it mixes something. -/
def Runner.Bounded (bufferFrames : ℕ) : Runner → Prop
  | .availTest frames | .getBuffer frames | .mix _ frames => frames ≤ bufferFrames
  | .mixing _ frames => frames ≤ bufferFrames ∧ frames ≠ 0
  | _ => True

/-- The bound grows with the frames. -/
theorem chunkCount_mono {frames frames' : ℕ} (hle : frames ≤ frames') :
    chunkCount frames ≤ chunkCount frames' := by
  unfold chunkCount
  omega

/-- Each call of `mix_samples` is one fewer. -/
theorem chunkCount_sub_toWrite {frames : ℕ} (hmore : frames ≠ 0) :
    chunkCount (frames - toWrite frames) + 1 = chunkCount frames := by
  unfold chunkCount toWrite maxNumSamples
  omega

/-- No place is further from the end than the wait. -/
theorem Runner.remaining_le {bufferFrames : ℕ} {place : Runner}
    (h : place.Bounded bufferFrames) :
    place.remaining bufferFrames ≤ 9 + 2 * chunkCount bufferFrames := by
  cases place with
  | availTest frames | getBuffer frames | mix _ frames =>
    have hle := chunkCount_mono h
    simp only [remaining]
    omega
  | mixing _ frames =>
    have hle := chunkCount_mono h.1
    simp only [remaining]
    omega
  | _ =>
    simp only [remaining]
    omega

/-- Each call brings the end closer, whether it succeeds or fails. -/
theorem Runner.call_remaining {bufferFrames : ℕ} {place : Runner} {call : ClientCall}
    (hcall : place.call bufferFrames = some call) (padding : ℕ) :
    (place.succeeds bufferFrames padding).remaining bufferFrames < place.remaining bufferFrames ∧
      place.fails.remaining bufferFrames < place.remaining bufferFrames := by
  have hle := chunkCount_mono (Nat.sub_le bufferFrames padding)
  cases place with
  | test | availTest _ | wait | mix _ _ | mixing _ _ | done => cases hcall
  | _ =>
    simp only [succeeds, fails, remaining]
    omega

/-- Every step keeps the counts bounded. -/
theorem WasapiStep.bounded {bufferFrames : ℕ} {s t : WasapiState} {label : WasapiLabel}
    (h : ∀ place ∈ s.thr, place.Bounded bufferFrames)
    (hstep : WasapiStep bufferFrames s label t) :
    ∀ place ∈ t.thr, place.Bounded bufferFrames := by
  cases hstep with
  | @succeeds place call hthr hcall _ =>
    have hplace := h place hthr
    rintro _ ⟨⟩
    cases place with
    | test | availTest _ | wait | mix _ _ | mixing _ _ | done => cases hcall
    | avail | recheck => exact Nat.sub_le _ _
    | getBuffer _ => exact hplace
    | kickGet | kickRelease | kickStart | release _ | stop | reset => trivial
  | @fails place call hthr hcall =>
    rintro _ ⟨⟩
    cases place with
    | test | availTest _ | wait | mix _ _ | mixing _ _ | done => cases hcall
    | _ => trivial
  | test hthr =>
    rintro _ ⟨⟩
    split <;> trivial
  | availTest hthr =>
    have hplace := h _ hthr
    rintro _ ⟨⟩
    split_ifs
    · trivial
    · exact hplace
    · trivial
  | wake _ _ | waitFails _ | mixed _ | spawn _ =>
    rintro _ ⟨⟩
    trivial
  | mixCall hthr hmore =>
    have hplace := h _ hthr
    rintro _ ⟨⟩
    exact ⟨hplace, hmore⟩
  | mixReturn hthr =>
    have hplace := h _ hthr
    rintro _ ⟨⟩
    exact (Nat.sub_le _ _).trans hplace.1
  | start _ _ | started _ | stop _ _ | kill _ | signal _ | stopCall _ | stopReturn _ | plays _ _
  | signals => exact h
  | join _ _ => exact nofun

/-- So does every run. -/
theorem WasapiRun.bounded {bufferFrames : ℕ} {s t : WasapiState} {labels : List WasapiLabel}
    (h : ∀ place ∈ s.thr, place.Bounded bufferFrames)
    (hrun : WasapiRun bufferFrames s labels t) :
    ∀ place ∈ t.thr, place.Bounded bufferFrames := by
  induction hrun with
  | nil => exact h
  | concat _ hstep ih => exact hstep.bounded ih

/-- A step of the audio thread. -/
def WasapiLabel.isAudio : WasapiLabel → Bool
  | .call _ _ | .mix _ | .audio | .waitFails => true
  | .control _ | .main | .device => false

/-- A step of the audio thread or of the device. -/
def WasapiLabel.Aside : WasapiLabel → Prop
  | .control _ | .main => False
  | .call _ _ | .mix _ | .audio | .waitFails | .device => True

/-- The bound for the thread there is. -/
def WasapiState.remaining (bufferFrames : ℕ) (s : WasapiState) : ℕ :=
  s.thr.elim 0 (Runner.remaining bufferFrames)

/-- While the main thread joins, each step of the audio thread brings its end closer, and the
device does not move it. -/
theorem WasapiStep.closer {bufferFrames : ℕ} {s t : WasapiState} {label : WasapiLabel}
    (h : s.Consistent) (hbounded : ∀ place ∈ s.thr, place.Bounded bufferFrames)
    (hmain : s.main = .joining) (hstep : WasapiStep bufferFrames s label t)
    (haside : label.Aside) :
    t.main = .joining ∧
      t.remaining bufferFrames + label.isAudio.toNat ≤ s.remaining bufferFrames := by
  have hdead : s.dead = true := by
    rw [WasapiState.Consistent, hmain] at h
    exact h.2.2.1
  have hthread : ∀ {place place' : Runner} {isAudio : Bool}, s.thr = some place →
      place'.remaining bufferFrames < place.remaining bufferFrames →
        (some place').elim 0 (Runner.remaining bufferFrames) + isAudio.toNat ≤
          s.remaining bufferFrames := by
    intro place place' isAudio hthr hlt
    have hone := isAudio.toNat_le
    rw [WasapiState.remaining, hthr, Option.elim_some, Option.elim_some]
    omega
  cases hstep with
  | succeeds hthr hcall _ => exact ⟨hmain, hthread hthr (Runner.call_remaining hcall _).1⟩
  | fails hthr hcall => exact ⟨hmain, hthread hthr (Runner.call_remaining hcall 0).2⟩
  | test hthr =>
    refine ⟨hmain, hthread hthr ?_⟩
    rw [if_pos hdead]
    exact Nat.lt_succ_self 2
  | availTest hthr =>
    refine ⟨hmain, hthread hthr ?_⟩
    simp only [hdead, Bool.not_true, Bool.false_and, Bool.false_eq_true, if_false]
    split
    · simp only [Runner.remaining]
      omega
    · simp only [Runner.remaining]
      omega
  | wake hthr _ | waitFails hthr =>
    refine ⟨hmain, hthread hthr ?_⟩
    simp only [Runner.remaining]
    omega
  | mixCall hthr _ =>
    refine ⟨hmain, hthread hthr ?_⟩
    simp only [Runner.remaining]
    omega
  | mixReturn hthr =>
    have hfewer := chunkCount_sub_toWrite (hbounded _ hthr).2
    refine ⟨hmain, hthread hthr ?_⟩
    simp only [Runner.remaining]
    omega
  | mixed hthr =>
    refine ⟨hmain, hthread hthr ?_⟩
    simp only [Runner.remaining]
    omega
  | start _ _ | started _ | spawn _ | stop _ _ | kill _ | signal _ | join _ _ | stopCall _
  | stopReturn _ => exact haside.elim
  | plays _ _ | signals => exact ⟨hmain, le_rfl⟩

/-- So it takes only so many. -/
theorem WasapiRun.closer {bufferFrames : ℕ} {s t : WasapiState} {labels : List WasapiLabel}
    (h : s.Consistent) (hbounded : ∀ place ∈ s.thr, place.Bounded bufferFrames)
    (hmain : s.main = .joining) (hrun : WasapiRun bufferFrames s labels t)
    (haside : ∀ label ∈ labels, label.Aside) :
    t.main = .joining ∧
      t.remaining bufferFrames + labels.countP WasapiLabel.isAudio ≤ s.remaining bufferFrames := by
  induction hrun with
  | nil => exact ⟨hmain, le_rfl⟩
  | @concat t w labels label hrun hstep ih =>
    obtain ⟨hjoining, hle⟩ := ih fun label hmem => haside label (List.mem_append_left _ hmem)
    obtain ⟨hjoining', hle'⟩ := hstep.closer (h.run hrun) (hrun.bounded hbounded) hjoining
      (haside _ (List.mem_append_right _ (List.mem_singleton_self _)))
    refine ⟨hjoining', ?_⟩
    have hcount : [label].countP WasapiLabel.isAudio = label.isAudio.toNat := by
      cases hlabel : label.isAudio <;> simp [hlabel]
    rw [List.countP_append]
    omega

/-- The audio thread is not stuck while it is joined, even if its wait does not fail. -/
theorem WasapiState.Consistent.not_stuck {bufferFrames : ℕ} {s : WasapiState} {place : Runner}
    (h : s.Consistent) (hmain : s.main = .joining) (hthr : s.thr = some place)
    (hdone : place ≠ .done) :
    ∃ (label : WasapiLabel) (t : WasapiState),
      label.isAudio = true ∧ label ≠ .waitFails ∧ WasapiStep bufferFrames s label t := by
  cases hcall : place.call bufferFrames with
  | some call => exact ⟨.call call false, _, rfl, by simp, .fails s hthr hcall⟩
  | none =>
    cases place with
    | kickGet | kickRelease | kickStart | avail | recheck | getBuffer _ | release _ | stop
    | reset => cases hcall
    | test => exact ⟨.audio, _, rfl, by simp, .test s hthr⟩
    | availTest avail => exact ⟨.audio, _, rfl, by simp, .availTest s hthr⟩
    | wait =>
      rw [Consistent, hmain] at h
      exact ⟨.audio, _, rfl, by simp, .wake s hthr (h.2.2.2 hthr)⟩
    | mix toRelease writeAvail =>
      by_cases hmore : writeAvail = 0
      · subst hmore
        exact ⟨.audio, _, rfl, by simp, .mixed s hthr⟩
      · exact ⟨.mix _, _, rfl, by simp, .mixCall s hthr hmore⟩
    | mixing toRelease writeAvail => exact ⟨.mix _, _, rfl, by simp, .mixReturn s hthr⟩
    | done => exact absurd rfl hdone

/-- **`stop` returns.** Whenever the main thread joins the audio thread, in any run, the audio
thread takes at most nine steps more, and two for each chunk of a whole buffer, whatever the device
does; and when it can take no more, short of a wait that fails, the join returns. So no wakeup is
lost between its test of `dead` and its wait. -/
theorem wasapi_stop_returns {bufferFrames : ℕ} {dead : Bool} {s t : WasapiState}
    {before labels : List WasapiLabel} (hreach : WasapiRun bufferFrames (.init dead) before s)
    (hmain : s.main = .joining) (hrun : WasapiRun bufferFrames s labels t)
    (haside : ∀ label ∈ labels, label.Aside) :
    labels.countP WasapiLabel.isAudio ≤ 9 + 2 * chunkCount bufferFrames ∧
      ((∀ label w, label.isAudio = true → label ≠ .waitFails →
          ¬WasapiStep bufferFrames t label w) →
        WasapiStep bufferFrames t .main { t with thr := none, main := .joined }) := by
  have h := (consistent_init dead).run hreach
  have hbounded := hreach.bounded (by exact nofun)
  obtain ⟨hjoining, hle⟩ := hrun.closer h hbounded hmain haside
  constructor
  · refine (Nat.le_add_left _ _).trans (hle.trans ?_)
    unfold WasapiState.remaining
    cases hthr : s.thr with
    | none => exact Nat.zero_le _
    | some place => exact Runner.remaining_le (hbounded place hthr)
  · intro hstuck
    have ht := h.run hrun
    have hthread := ht
    rw [WasapiState.Consistent, hjoining] at hthread
    obtain ⟨place, hthr⟩ := Option.isSome_iff_exists.mp hthread.2.1
    refine .join t hjoining ?_
    by_contra hdone
    obtain ⟨label, w, haudio, hlabel, hstep⟩ :=
      @ht.not_stuck bufferFrames _ _ hjoining hthr fun heq => hdone (heq ▸ hthr)
    exact hstuck label w haudio hlabel hstep

/-- The main thread stops a backend whose thread is about to wait. -/
theorem wasapi_stop_returns_mixed :
    WasapiStep 480 ⟨false, true, some .done, .joining, ⟨false, 0, none⟩, false⟩ .main
      ⟨false, true, none, .joined, ⟨false, 0, none⟩, false⟩ := by
  have hfull := ((wasapiRun_mixed.concat (.succeeds _ rfl rfl rfl)).concat (.test _ rfl)).concat
    (.succeeds _ rfl rfl trivial)
  have hreach := (((hfull.concat (.availTest _ rfl)).concat (.stop _ rfl rfl)).concat
    (.kill _ rfl)).concat (.signal _ rfl)
  change WasapiRun _ _ _ ⟨false, true, some .wait, .joining, ⟨true, 480, none⟩, true⟩ at hreach
  have hnil : WasapiRun 480 ⟨false, true, some .wait, .joining, ⟨true, 480, none⟩, true⟩ [] _ :=
    .nil _
  have hrun := ((((hnil.concat (.wake _ rfl rfl)).concat (.succeeds _ rfl rfl trivial)).concat
    (.availTest _ rfl)).concat (.succeeds _ rfl rfl trivial)).concat
      (.succeeds _ rfl rfl ⟨rfl, rfl⟩)
  refine (wasapi_stop_returns hreach rfl hrun ?_).2 ?_
  · simp [WasapiLabel.Aside]
  · intro label w haudio hlabel hstep
    cases hstep with
    | succeeds hthr hcall _ | fails hthr hcall =>
      cases hthr
      cases hcall
    | test hthr | availTest hthr | wake hthr _ | waitFails hthr | mixCall hthr _
    | mixReturn hthr | mixed hthr => cases hthr
    | start _ _ | started _ | spawn _ | stop _ _ | kill _ | signal _ | join _ _ | stopCall _
    | stopReturn _ | plays _ _ | signals => cases haudio

end Sussybard
