import Sussybard.ResourceObjects

/-!
# Every run keeps its books

The loop of `main` uses only what is held, and so do the sessions of the two
backends. The scopes of the objects then nest by the frame rule, since none of
them has to do with the resources of another.
-/

namespace Sussybard

open Ledger Transducer

/-! ### The loop -/

section Loop

variable {target : Target} {session : Session} {held : Finset Resource}
  (hsink : session.udpSink = true → .sinkSocket ∈ held)
  (hkey : target = .linux → session.key.isSome = true → .connection ∈ held)

include hkey in
/-- Key events go to the connection, if there is a key sink. -/
theorem onlyUses_dispatchKeys (isLocal : Bool) (keyEvents : List KeyEvent) :
    OnlyUses held ((dispatchKeys session isLocal keyEvents).flatMap (Effect.uses target)) := by
  unfold dispatchKeys
  split_ifs with hdispatch
  · simp only [Bool.and_eq_true] at hdispatch
    cases target with
    | linux => simpa [Effect.uses] using hkey rfl (by tauto)
    | win32 => simp [Effect.uses]
  · simp

include hkey in
/-- A call of `handle_note` uses the connection at most. -/
theorem onlyUses_handleNote (event : NoteEvent) (tracker : MonophonyTracker) (isLocal : Bool) :
    OnlyUses held
      ((handleNote session event tracker isLocal).2.2.flatMap (Effect.uses target)) := by
  have h := handleNote_spec session event tracker isLocal
  generalize handleNote session event tracker isLocal = r at h ⊢
  cases h with
  | outside _ | doubleTap _ _ _ | releaseOther _ _ _ => simp [Effect.uses]
  | firstPress _ _ _ | pressOver _ _ _ _ | releaseHeld _ _ _ =>
    simpa [Effect.uses] using onlyUses_dispatchKeys hkey isLocal _

include hsink hkey in
/-- A round uses the socket and the connection at most. -/
theorem Round.onlyUses {s : LoopState} {input : LoopInput} {r : LoopState × List Effect}
    (h : Round session s input r) : OnlyUses held (r.2.flatMap (Effect.uses target)) := by
  cases h with
  | stopped _ => simp
  | sendFailed _ _ hsends _ => simpa [Effect.uses] using hsink hsends
  | mirrored _ _ hsends _ =>
    simpa [Effect.uses] using ⟨hsink hsends, onlyUses_handleNote hkey _ _ _⟩
  | localOnly _ _ _ => exact onlyUses_handleNote hkey _ _ _
  | both _ _ =>
    simpa using ⟨onlyUses_handleNote hkey _ _ _, onlyUses_handleNote hkey _ _ _⟩

end Loop

/-- Uses of resources that are held. -/
theorem onlyUses_map {held : Finset Resource} {resources : List Resource}
    (hresources : ∀ r ∈ resources, r ∈ held) : OnlyUses held (resources.map .use) := by
  intro e he
  obtain ⟨r, hr, rfl⟩ := List.mem_map.mp he
  exact ⟨r, hresources r hr, rfl⟩

/-- What a run needs for its loop: the source, and the sinks that were asked for. -/
structure Provided (target : Target) (args : Arguments) (held : Finset Resource) : Prop where
  /-- The source. -/
  source : ∀ r ∈ args.sourceResources target, r ∈ held
  /-- The connection and the symbols of the key sink. -/
  key : target = .linux → args.keySink = true → .connection ∈ held ∧ .symbols ∈ held
  /-- The socket of the UDP sink. -/
  sink : args.udpSink ≠ "" → .sinkSocket ∈ held

/-- More resources provide as much. -/
theorem Provided.mono {target : Target} {args : Arguments} {held held' : Finset Resource}
    (h : Provided target args held) (hsubset : held ⊆ held') : Provided target args held' where
  source r hr := hsubset (h.source r hr)
  key htarget hasked := (h.key htarget hasked).imp (@hsubset _) (@hsubset _)
  sink hasked := hsubset (h.sink hasked)

/-- The loop and what follows it only use what is provided. -/
theorem Provided.onlyUses_loop {target : Target} {args : Arguments} {held : Finset Resource}
    (h : Provided target args held) (o : MainOutcomes) (inputs : List LoopInput) :
    OnlyUses held (loopUses target args o inputs) := by
  have hsource : OnlyUses held ((args.sourceResources target).map .use) := onlyUses_map h.source
  have hsink : (o.session target args).udpSink = true → .sinkSocket ∈ held := fun hsession =>
    h.sink (by simpa [MainOutcomes.session, Arguments.session] using hsession)
  have hkey : target = .linux → (o.session target args).key.isSome = true →
      .connection ∈ held := by
    intro htarget hsession
    have hasked : args.keySink = true := by
      by_contra hnot
      simp [MainOutcomes.session, Arguments.session, hnot] at hsession
    exact (h.key htarget hasked).1
  have hloop : OnlyUses held (useLoop target args o inputs).2 := by
    refine exec_invariant (fun _ events => OnlyUses held events) ?_ (onlyUses_nil held) inputs
    intro s events input hevents
    refine onlyUses_append.mpr ⟨hevents, ?_⟩
    unfold useStep
    split_ifs
    · exact onlyUses_append.mpr ⟨hsource, (iterate_spec _ s input).onlyUses hsink hkey⟩
    · exact onlyUses_nil held
  unfold loopUses
  refine onlyUses_append.mpr ⟨onlyUses_append.mpr ⟨hloop, ?_⟩, ?_⟩
  · split_ifs
    · exact hsource
    · exact onlyUses_nil held
  · unfold releaseAtShutdown
    split_ifs with hrelease
    · simp only [Bool.and_eq_true] at hrelease
      cases target with
      | linux => simpa [Effect.uses] using hkey rfl hrelease.1
      | win32 => simp [Effect.uses]
    · simp

/-! ### The sessions -/

/-- What may be left over when `main` returns a status: on Linux the operations of the two corks,
when it comes to them; on Windows some of the start-ups that it keeps. -/
def Target.Left (target : Target) (kept : Finset Resource) (status : ℕ)
    (rest : Finset Resource) : Prop :=
  match target with
  | .linux => rest = if status = 0 then {.operation true, .operation false} else ∅
  | .win32 => rest ⊆ kept

section Session

variable {target : Target} {args : Arguments} {o : MainOutcomes} {held : Finset Resource}

/-- The voices that there are can be started. -/
theorem onlyUses_start (hvoices : ∀ v ∈ voicesOf o.voiceNew, v ∈ held) :
    OnlyUses held (Synth.onBackendStartUses o) := onlyUses_map hvoices

/-- They can be mixed if they are all there. -/
theorem onlyUses_mix (hvoices : ∀ v ∈ voicesOf o.voiceNew, v ∈ held)
    (hmixes : o.mixes = 0 ∨ ∀ split, o.voiceNew split = true) :
    OnlyUses held (Synth.mixSamplesUses o) := by
  unfold Synth.mixSamplesUses
  rcases hmixes with hnone | hboth
  · simp [hnone]
  · have hall : voicesOf o.voiceNew = Synth.allVoices := by
      rw [voicesOf, List.filter_eq_self.mpr fun split _ => hboth split, Synth.allVoices]
    rw [hall] at hvoices
    intro e he
    obtain ⟨l, hl, he⟩ := List.mem_flatten.mp he
    obtain rfl := List.eq_of_mem_replicate hl
    exact onlyUses_map hvoices e he

/-- A session on Linux leaves its two operations. -/
theorem Pulse.sessionTrace_leaves (h : Provided .linux args held)
    (hbackend : .mainloop ∈ held ∧ .stream ∈ held)
    (hvoices : ∀ v ∈ voicesOf o.voiceNew, v ∈ held)
    (hmixes : o.mixes = 0 ∨ ∀ split, o.voiceNew split = true)
    (hfree : ∀ start, .operation start ∉ held) (inputs : List LoopInput) :
    (Pulse.sessionTrace args o inputs).Leaves outlives held (Target.Left .linux ∅) := by
  obtain ⟨hmainloop, hstream⟩ := hbackend
  have hstarted : after outlives held (Pulse.startUses o) = some held := by
    refine OnlyUses.after_eq ?_
    simp [Pulse.startUses, hmainloop, hstream, onlyUses_start hvoices]
  have hplay : OnlyUses held (Pulse.playUses args o inputs) := by
    simp [Pulse.playUses, hmainloop, hstream, onlyUses_mix hvoices hmixes, h.onlyUses_loop o inputs]
  have hplayed : after outlives held
      (Pulse.startUses o ++ ([.acquire (.operation true)] ++ Pulse.playUses args o inputs)) =
        some (insert (.operation true) held) :=
    after_trans hstarted (after_trans (after_acquire (hfree true))
      (hplay.mono (Finset.subset_insert _ _)).after_eq)
  have hstop : .operation false ∉ insert (.operation true) held := by simp [hfree]
  have hend : OnlyUses (insert (.operation false) (insert (.operation true) held))
      [.use .mainloop] := by simp [hmainloop]
  unfold Pulse.sessionTrace
  split_ifs
  · exact Trace.leaves_of_after hstarted (by simp)
  · exact Trace.leaves_of_after hplayed (by simp)
  · refine ⟨_, after_trans hplayed (after_trans (after_acquire hstop) hend.after_eq),
      fun status hstatus => ⟨_, rfl, ?_⟩⟩
    obtain rfl := Ending.returns.inj hstatus
    ext r
    simp only [Finset.mem_insert, Finset.mem_union, if_true, Finset.mem_singleton]
    tauto

/-- The audio thread uses what it plays to, and gives its task back. -/
theorem WASAPI.threadRunner_after (hobjects : ∀ object : AudioObject, object.resource ∈ held)
    (hmix : OnlyUses held (Synth.mixSamplesUses o)) (hfree : .audioTask ∉ held) :
    after outlives held (WASAPI.threadRunner o) = some held := by
  have huses : OnlyUses held (WASAPI.threadUses o) := by
    have hcalls : OnlyUses held (o.threadCalls.map fun object => .use object.resource) := by
      intro e he
      obtain ⟨object, -, rfl⟩ := List.mem_map.mp he
      exact ⟨_, hobjects object, rfl⟩
    simp [WASAPI.threadUses, hcalls, hmix]
  have hclient : .audioClient ∈ held := hobjects .client
  have hstop : OnlyUses held [.use .audioClient, .use .audioClient] := by simp [hclient]
  unfold WASAPI.threadRunner
  split_ifs
  · have hlast : ∀ r, outlives .audioTask r = false := fun _ => rfl
    exact after_trans (after_trans (after_trans (after_acquire hfree)
      (huses.mono (Finset.subset_insert _ _)).after_eq) (after_release hfree fun r _ => hlast r))
      hstop.after_eq
  · simpa using (onlyUses_append.mpr ⟨huses, hstop⟩).after_eq

/-- A session on Windows leaves nothing. -/
theorem WASAPI.sessionTrace_leaves (h : Provided .win32 args held)
    (hobjects : ∀ object : AudioObject, object.resource ∈ held)
    (hvoices : ∀ v ∈ voicesOf o.voiceNew, v ∈ held)
    (hmixes : o.mixes = 0 ∨ ∀ split, o.voiceNew split = true)
    (hthread : .audioThread ∉ held) (htask : .audioTask ∉ held) (inputs : List LoopInput)
    (kept : Finset Resource) :
    (WASAPI.sessionTrace args o inputs).Leaves outlives held (Target.Left .win32 kept) := by
  have hsubset := Finset.subset_insert .audioThread held
  have htask' : .audioTask ∉ insert .audioThread held := by simp [htask]
  have hrun : after outlives held (Synth.onBackendStartUses o ++ ([.acquire .audioThread] ++
      (WASAPI.threadRunner o ++ loopUses .win32 args o inputs))) =
        some (insert .audioThread held) := by
    refine after_trans (onlyUses_start hvoices).after_eq (after_trans (after_acquire hthread)
      (after_trans (WASAPI.threadRunner_after (fun object => hsubset (hobjects object)) ?_ htask')
        ((h.mono hsubset).onlyUses_loop o inputs).after_eq))
    exact (onlyUses_mix hvoices hmixes).mono hsubset
  have hjoin : after outlives (insert .audioThread held)
      ([.use .audioEvent] ++ [.release .audioThread]) = some held := by
    have hevent : .audioEvent ∈ held := hobjects .event
    have hset : OnlyUses (insert .audioThread held) [.use .audioEvent] := by simp [hevent]
    refine after_trans hset.after_eq (after_release hthread fun r hr => ?_)
    -- the thread has to outlive its task only
    have htaskOnly : ∀ r, r ≠ .audioTask → outlives .audioThread r = false := by
      intro r hne
      cases r with
      | audioTask => exact absurd rfl hne
      | _ => rfl
    exact htaskOnly r fun heq => htask' (heq ▸ hr)
  unfold WASAPI.sessionTrace
  split_ifs
  · exact Trace.leaves_of_after hrun (by simp)
  · exact ⟨held, after_trans hrun hjoin, fun status _ =>
      ⟨∅, Finset.empty_subset _, (Finset.union_empty held).symm⟩⟩

end Session

/-! ### The scopes of `main` -/

/-- The translations of the keys leave the key codes of none behind. -/
theorem translateKeys_leaves {body : Trace Resource} {held : Finset Resource}
    {left : ℕ → Finset Resource → Prop} (layout : UInt32 → Option (List UInt8)) {cs : List UInt32}
    (hbody : body.Leaves outlives held left) (hsymbols : cs ≠ [] → .symbols ∈ held)
    (hfree : .keycodes ∉ held) : (translateKeys layout cs body).Leaves outlives held left := by
  induction cs with
  | nil => exact hbody
  | cons c cs ih =>
    have hheld := hsymbols (by simp)
    have hquery : after outlives held [.use .symbols, .acquire .keycodes, .use .keycodes] =
        some (insert .keycodes held) := by
      simp [after, step, hheld, hfree]
    have hlast : ∀ r, outlives .keycodes r = false := fun _ => rfl
    unfold translateKeys
    cases layout c with
    | none => exact Trace.leaves_of_after (OnlyUses.after_eq (by simpa using hheld)) (by simp)
    | some codes =>
      dsimp only
      cases getKeycode (some codes) with
      | none => exact Trace.leaves_of_after hquery (by simp)
      | some code =>
        exact (ih fun _ => hheld).following
          (after_trans hquery (after_release hfree fun r _ => hlast r))

/-- What may be left over is apart from a region that has nothing to do with operations and with
what is kept. -/
theorem Target.Left.apart {target : Target} {region kept : Finset Resource} {status : ℕ}
    {rest : Finset Resource} (h : target.Left kept status rest)
    (hoperations : Apart outlives region {.operation true, .operation false})
    (hkept : Apart outlives region kept) : Apart outlives region rest := by
  cases target with
  | linux =>
    obtain rfl : rest = if status = 0 then {.operation true, .operation false} else ∅ := h
    split_ifs
    · exact hoperations
    · exact hoperations.mono (Finset.empty_subset _)
  | win32 => exact hkept.mono h

/-- What an object keeps may be left over as well. -/
theorem Target.Left.union {target : Target} {kept kept' : Finset Resource} {status : ℕ}
    {rest own : Finset Resource} (h : target.Left kept status rest)
    (hown : own ⊆ target.kept kept') : target.Left (kept' ∪ kept) status (own ∪ rest) := by
  cases target with
  | linux =>
    obtain rfl := Finset.subset_empty.mp hown
    rw [Finset.empty_union]
    exact h
  | win32 => exact Finset.union_subset_union hown h

/-- Nothing is left over when `main` returns early. -/
theorem Target.left_failure (target : Target) (kept : Finset Resource) : target.Left kept 1 ∅ := by
  cases target with
  | linux => rfl
  | win32 => exact Finset.empty_subset _

/-- A source is set up with what is waited on. -/
theorem createMidiSource_balanced (target : Target) (args : Arguments) (o : MainOutcomes) :
    (createMidiSource target args o).Balanced outlives sourceRegion
      (args.sourceResources target).toFinset (target.kept {.winsock false}) := by
  unfold createMidiSource Arguments.sourceResources
  split_ifs
  · exact MIDISourceUDP.setup_balanced _ _ _
  · cases target with
    | linux => exact MIDISourceALSA.setup_balanced _
    | win32 => exact MIDISourceMM.setup_balanced _ _

/-- A key sink is set up with its connection and its symbols, if one is asked for. -/
theorem keySetup_balanced (target : Target) (args : Arguments) (o : MainOutcomes) :
    (keySetup target args o).Balanced outlives keyRegion
      (if target = .linux ∧ args.keySink = true then {.connection, .symbols} else ∅) ∅ := by
  unfold keySetup
  cases target with
  | linux =>
    cases args.keySink with
    | true => exact XcbKeySink.setup_balanced _
    | false => exact Setup.absent_balanced _ _
  | win32 => exact Setup.absent_balanced _ _

/-- A UDP sink is set up with its socket, if one is asked for. -/
theorem sinkSetup_balanced (target : Target) (args : Arguments) (o : MainOutcomes) :
    (sinkSetup target args o).Balanced outlives sinkRegion
      (if args.udpSink = "" then ∅ else {.sinkSocket}) (target.kept {.winsock true}) := by
  unfold sinkSetup
  split_ifs
  · exact Setup.absent_balanced _ _
  · exact UDPSink.setup_balanced _ _ _

/-- The scope of the backend leaves what the session leaves, and COM. -/
theorem backendTrace_leaves {target : Target} {args : Arguments} {o : MainOutcomes}
    {held : Finset Resource} (h : Provided target args held)
    (hmixes : o.mixes = 0 ∨ ∀ split, o.voiceNew split = true)
    (hheld : held ⊆ sourceRegion ∪ keyRegion ∪ sinkRegion) (inputs : List LoopInput) :
    (backendTrace target args o inputs).Leaves outlives held (target.Left {.com}) := by
  have hapart : Apart outlives backendRegion held := by
    have hall : Apart outlives backendRegion (sourceRegion ∪ keyRegion ∪ sinkRegion) := by decide
    exact hall.mono hheld
  have hoperations : Apart outlives backendRegion {.operation true, .operation false} := by decide
  have hfree : ∀ own ⊆ backendRegion, (∀ start, .operation start ∉ held ∪ own) ∧
      .audioThread ∉ held ∪ own ∧ .audioTask ∉ held ∪ own := by
    intro own hown
    have hall : (∀ start, .operation start ∉
        sourceRegion ∪ keyRegion ∪ sinkRegion ∪ backendRegion) ∧
          .audioThread ∉ sourceRegion ∪ keyRegion ∪ sinkRegion ∪ backendRegion ∧
            .audioTask ∉ sourceRegion ∪ keyRegion ∪ sinkRegion ∪ backendRegion := by decide
    have hsubset := Finset.union_subset_union hheld hown
    exact ⟨fun start hop => hall.1 start (hsubset hop), fun hop => hall.2.1 (hsubset hop),
      fun hop => hall.2.2 (hsubset hop)⟩
  unfold backendTrace
  cases target with
  | linux =>
    have hleft : ∀ status rest, Target.Left .linux ∅ status rest →
        ∀ own ⊆ (∅ : Finset Resource), Target.Left .linux {.com} status (own ∪ rest) := by
      intro status rest hrest own hown
      exact (hrest.union hown : Target.Left .linux (∅ ∪ ∅) status (own ∪ rest))
    rcases Pulse.init_cases o with ⟨hinit, hwaiting⟩ | ⟨call, hinit, hsetup⟩
    · obtain ⟨⟨own, hafter⟩, hregion⟩ := waitingEvents_after hwaiting
      have hframed := after_frame hafter hregion hapart
      rw [Finset.empty_union] at hframed
      simp only [hinit]
      exact Trace.leaves_of_after hframed (by simp)
    · simp only [hinit]
      refine (Pulse.setup_balanced hsetup).leaves hapart
        (fun _ _ hrest => hrest.apart hoperations (by decide)) hleft (Target.left_failure _ _)
        fun _ own hown hneeded => ?_
      have hmem : ∀ r ∈ ({.mainloop, .stream} ∪ (voicesOf o.voiceNew).toFinset : Finset Resource),
          r ∈ held ∪ own := fun r hr => Finset.mem_union_right _ (hneeded hr)
      exact Pulse.sessionTrace_leaves (h.mono Finset.subset_union_left)
        ⟨hmem _ (by simp), hmem _ (by simp)⟩ (fun v hv => hmem v (by simp [hv])) hmixes
        (hfree own hown).1 inputs
  | win32 =>
    refine (WASAPI.setup_balanced o).leaves hapart
      (fun _ _ hrest => hrest.apart hoperations (by decide))
      (fun _ _ hrest _ hown => hrest.union hown) (Target.left_failure .win32 ∅)
      fun _ own hown hneeded => ?_
    have hmem : ∀ r ∈ ({.audioClient, .renderClient, .mixFormat, .audioEvent} ∪
        (voicesOf o.voiceNew).toFinset : Finset Resource), r ∈ held ∪ own :=
      fun r hr => Finset.mem_union_right _ (hneeded hr)
    refine WASAPI.sessionTrace_leaves (h.mono Finset.subset_union_left) (fun object => ?_)
      (fun v hv => hmem v (by simp [hv])) hmixes (hfree own hown).2.1 (hfree own hown).2.2 inputs ∅
    cases object with
    | client | renderer | event | format => exact hmem _ (by simp [AudioObject.resource])

/-- Outcomes of a run in which every call succeeds. -/
def successes : MainOutcomes where
  sourceApi := ⟨true, fun _ _ => none, some 3, 0, 0, id⟩
  alsa := ⟨0, 0, 0, 0⟩
  midiIn := ⟨[none, some "Piano"], true⟩
  xcb := ⟨true, true, false⟩
  layout c := some [c.toUInt8, 0]
  sinkApi := ⟨true, fun _ _ => some [⟨.inet, 16, {}⟩], some 4, 0, 0, id⟩
  pulse := ⟨true, true, 0, 0, [.connecting, .ready], .ready, true, 0, [.creating, .ready], .ready⟩
  wasapi := ⟨true, true, true, true, true, true, true, true, true, true, true, true⟩
  voiceNew _ := true
  mixes := 2
  startCork := some ⟨0, 1⟩
  stopCork := some ⟨0, 1⟩
  avSetMmThreadCharacteristics := true
  threadCalls := [.renderer, .renderer, .client, .format, .client, .event, .client]

/-- The arguments of a player who asks for both sinks. -/
def duetArguments : Arguments := { client := "Piano", udpSink := "host:5678", keySink := true }

end Sussybard
