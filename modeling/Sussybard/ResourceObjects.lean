import Mathlib.Data.List.Sublists
import Sussybard.Resources

/-!
# Every object releases what it has

Whichever call of its `init` fails, the destructor of an object releases what
`init` has acquired until then. An object has to do with a region of its own
only. Where the ways through an `init` are finitely many, they are all looked at.
-/

namespace Sussybard

open Ledger Transducer

/-- What a source may have to do with. -/
def sourceRegion : Finset Resource := {.sequencer, .midiIn, .sourceSocket, .winsock false}

/-- What a key sink may have to do with when it is set up. -/
def keyRegion : Finset Resource := {.connection, .versionReply, .versionError, .symbols}

/-- What a UDP sink may have to do with when it is set up. -/
def sinkRegion : Finset Resource := {.sinkSocket, .addresses, .winsock true}

/-- What the backend and the synth may have to do with. -/
def backendRegion : Finset Resource :=
  {.mainloop, .mainloopThread, .context, .stream, .com, .enumerator, .device, .audioClient,
    .mixFormat, .renderClient, .audioEvent} ∪ Synth.allVoices.toFinset

/-- What an object keeps on Windows; on Linux, none keeps anything. -/
def Target.kept (resources : Finset Resource) : Target → Finset Resource
  | .linux => ∅
  | .win32 => resources

/-- An ALSA source releases its sequencer, however far its setup comes. -/
theorem MIDISourceALSA.setup_balanced (o : AlsaOutcomes) :
    (MIDISourceALSA.setup o).Balanced outlives sourceRegion {.sequencer} ∅ := by
  have hshapes : (MIDISourceALSA.calls o).map Call.shape =
      (MIDISourceALSA.calls ⟨0, 0, 0, 0⟩).map Call.shape := rfl
  exact Setup.ofCalls_balanced hshapes (by decide)

/-- A source of Windows closes its device. -/
theorem MIDISourceMM.setup_balanced (o : MidiInOutcomes) (client : String) :
    (MIDISourceMM.setup o client).Balanced outlives sourceRegion ∅ {.winsock false} := by
  have hshapes : (MIDISourceMM.calls o client).map Call.shape =
      (MIDISourceMM.calls ⟨[], true⟩ "").map Call.shape := rfl
  exact Setup.ofCalls_balanced hshapes (by decide)

/-- A UDP source closes its socket. -/
theorem MIDISourceUDP.setup_balanced (target : Target) (api : SocketApi) (client : String) :
    (MIDISourceUDP.setup target api client).Balanced outlives sourceRegion {.sourceSocket}
      (target.kept {.winsock false}) := by
  have hshapes : (MIDISourceUDP.calls target api client).map Call.shape =
      [([], []), ([], target.socketApi false), ([], [.acquire .sourceSocket]),
        ([.use .sourceSocket], []), ([.use .sourceSocket], [])] := rfl
  refine Setup.ofCalls_balanced hshapes ?_
  cases target with
  | linux => decide
  | win32 => decide

/-- A UDP sink closes its socket; it frees the list of addresses already when it is set up. -/
theorem UDPSink.setup_balanced (target : Target) (api : SocketApi) (server : String) :
    (UDPSink.setup target api server).Balanced outlives sinkRegion {.sinkSocket}
      (target.kept {.winsock true}) := by
  unfold UDPSink.setup
  cases Text.splitLast ':' server.toList with
  | none =>
    dsimp only
    cases target with
    | linux => decide
    | win32 => decide
  | some split =>
    obtain ⟨hostname, port⟩ := split
    have hshapes : (UDPSink.calls target api hostname port).map Call.shape =
        [([], target.socketApi true),
          ([], [.acquire .addresses, .use .addresses, .release .addresses]), ([], []),
          ([], [.acquire .sinkSocket])] := rfl
    refine Setup.ofCalls_balanced hshapes ?_
    cases target with
    | linux => decide
    | win32 => decide

/-- A key sink of Linux releases its connection, and its key symbols when it has them. -/
theorem XcbKeySink.setup_balanced (o : XcbOutcomes) :
    (XcbKeySink.setup o).Balanced outlives keyRegion {.connection, .symbols} ∅ := by
  obtain ⟨connect, versionReply, versionError⟩ := o
  revert connect versionReply versionError
  decide

/-- Some of the voices are there. -/
theorem voicesOf_mem (voiceNew : Fin 2 → Bool) : voicesOf voiceNew ∈ Synth.allVoices.sublists :=
  List.mem_sublists.mpr (List.filter_sublist.map _)

/-- What `Pulse::init` does up to `pa_context_connect`, before something else. -/
def Pulse.connecting (more : List (Event Resource)) : List (Event Resource) :=
  .acquire .mainloop :: .use .mainloop :: .acquire .context :: .use .context :: .use .context ::
    more

/-- Up to the loop that waits for the context. -/
def Pulse.waiting (more : List (Event Resource)) : List (Event Resource) :=
  Pulse.connecting (.use .mainloop :: .use .mainloop :: .acquire .mainloopThread ::
    .use .context :: more)

/-- Up to `pa_stream_connect_playback`. -/
def Pulse.opening (more : List (Event Resource)) : List (Event Resource) :=
  Pulse.waiting (.use .context :: .acquire .stream :: .use .stream :: .use .stream :: more)

/-- The backends that `Pulse::init` fails to set up, one for each call that can fail. -/
def Pulse.failedSetups : List (Setup Resource) :=
  let disconnect : List (Event Resource) := [.use .context, .release .context, .release .mainloop]
  let close : List (Event Resource) := .use .stream :: .release .stream :: disconnect
  [⟨false, [], []⟩,
    ⟨false, [.acquire .mainloop, .use .mainloop], [.use .mainloop, .release .mainloop]⟩,
    ⟨false, Pulse.connecting [], .use .mainloop :: disconnect⟩,
    ⟨false, Pulse.connecting [.use .mainloop, .use .mainloop], .use .mainloop :: disconnect⟩,
    ⟨false, Pulse.waiting [.use .mainloop],
      .use .mainloop :: .release .mainloopThread :: disconnect⟩,
    ⟨false, Pulse.waiting [.use .context, .use .mainloop],
      .use .mainloop :: .release .mainloopThread :: disconnect⟩,
    ⟨false, Pulse.opening [.use .mainloop], .use .mainloop :: .release .mainloopThread :: close⟩,
    ⟨false, Pulse.opening [.use .stream, .use .mainloop],
      .use .mainloop :: .release .mainloopThread :: close⟩]

/-- The backend that it sets up otherwise, with these voices. -/
def Pulse.readySetup (voices : List Resource) : Setup Resource where
  ok := true
  events := Pulse.opening
    (.use .stream :: .use .stream :: voices.map .acquire ++ [.use .stream, .use .mainloop])
  destroy := .use .mainloop :: .release .mainloopThread :: .use .stream :: .release .stream ::
    .use .context :: .release .context :: .release .mainloop :: voices.map .release

/-- What it has done where it does not return, because it waits for the context or the stream. -/
def Pulse.waitingEvents : List (List (Event Resource)) :=
  [Pulse.waiting [], Pulse.opening [.use .stream]]

/-- The eleven ways of `Pulse::init`. -/
theorem Pulse.init_cases (o : MainOutcomes) :
    (Pulse.init {} 2 o.pulse = none ∧
        Pulse.initEvents o.voiceNew o.pulse ∈ Pulse.waitingEvents) ∨
      ∃ call, Pulse.init {} 2 o.pulse = some call ∧
        (Pulse.setup o call ∈ Pulse.failedSetups ∨
          Pulse.setup o call = Pulse.readySetup (voicesOf o.voiceNew)) := by
  unfold Pulse.setup Synth.destroy Pulse.initEvents InitOutcomes.threadRuns
  unfold Pulse.failedSetups Pulse.readySetup Pulse.waitingEvents
  unfold Pulse.opening Pulse.waiting Pulse.connecting
  generalize voicesOf o.voiceNew = voices
  generalize o.pulse = p
  simp only [Pulse.init, maxChannels, gt_iff_lt, lt_self_iff_false, if_false]
  cases hmainloop : p.mainloopNew with
  | false => simp [Pulse.destroy]
  | true =>
  cases hcontext : p.contextNew with
  | false => simp [Pulse.destroy]
  | true =>
  by_cases hconnect : p.contextConnect < 0
  · simp [hconnect, Pulse.destroy]
  by_cases hstart : p.mainloopStart < 0
  · simp [hconnect, hstart, Pulse.destroy]
  cases hcontextWaits : waitLoop ContextState.belowReady p.contextStates with
  | none => simp [hconnect, hstart]
  | some contextWaits =>
  by_cases hcontextState : p.contextState = .ready
  swap
  · simp [hconnect, hstart, hcontextState, Pulse.destroy]
  cases hstream : p.streamNew with
  | false => simp [hconnect, hstart, hcontextState, Pulse.destroy]
  | true =>
  by_cases hplayback : p.connectPlayback < 0
  · simp [hconnect, hstart, hcontextState, hplayback, Pulse.destroy]
  cases hstreamWaits : waitLoop StreamState.belowReady p.streamStates with
  | none => simp [hconnect, hstart, hcontextState, hplayback]
  | some streamWaits =>
  by_cases hstreamState : p.streamState = .ready
  · simp [hconnect, hstart, hcontextState, hplayback, hstreamState, Pulse.destroy]
  · simp [hconnect, hstart, hcontextState, hplayback, hstreamState, Pulse.destroy]

/-- The backend and the synth of Linux release all that they have, however far `Pulse::init`
comes. -/
theorem Pulse.setup_balanced {o : MainOutcomes} {call : PulseCall}
    (hsetup : Pulse.setup o call ∈ Pulse.failedSetups ∨
      Pulse.setup o call = Pulse.readySetup (voicesOf o.voiceNew)) :
    (Pulse.setup o call).Balanced outlives backendRegion
      ({.mainloop, .stream} ∪ (voicesOf o.voiceNew).toFinset) ∅ := by
  have hfailed : ∀ s ∈ Pulse.failedSetups,
      s.ok = false ∧ s.Balanced outlives backendRegion ∅ ∅ := by decide
  have hready : ∀ voices ∈ Synth.allVoices.sublists,
      (Pulse.readySetup voices).Balanced outlives backendRegion
        ({.mainloop, .stream} ∪ voices.toFinset) ∅ := by decide
  rcases hsetup with hmem | hsetup
  · obtain ⟨hok, hbalanced⟩ := hfailed _ hmem
    exact hbalanced.of_failed hok
  · rw [hsetup]
    exact hready _ (voicesOf_mem o.voiceNew)

/-- A run that waits in `Pulse::init` has misused nothing. -/
theorem waitingEvents_after {events : List (Event Resource)}
    (hevents : events ∈ Pulse.waitingEvents) :
    (∃ held, after outlives ∅ events = some held) ∧
      ∀ e ∈ events, e.resource ∈ backendRegion := by
  have hall : ∀ events ∈ Pulse.waitingEvents, (after outlives ∅ events).isSome = true ∧
      ∀ e ∈ events, e.resource ∈ backendRegion := by decide
  exact ⟨Option.isSome_iff_exists.mp (hall events hevents).1, (hall events hevents).2⟩

/-- Every call succeeds, but for `CreateEventA` perhaps. -/
def WasapiOutcomes.successful (createEvent : Bool) : WasapiOutcomes :=
  ⟨createEvent, true, true, true, true, true, true, true, true, true, true, true⟩

/-- The backend and the synth of Windows release all that they have but for COM. -/
theorem WASAPI.setup_balanced (o : MainOutcomes) :
    (WASAPI.setup o).Balanced outlives backendRegion
      ({.audioClient, .renderClient, .mixFormat, .audioEvent} ∪ (voicesOf o.voiceNew).toFinset)
      {.com} := by
  let order := [.mixFormat, .renderClient, .audioClient, .device, .enumerator, .audioEvent].map
    freed ++ Synth.allVoices.map freed
  have hshapes : (WASAPI.calls o.wasapi (voicesOf o.voiceNew)).map Call.shape =
      (WASAPI.calls (.successful o.wasapi.createEvent) (voicesOf o.voiceNew)).map Call.shape := rfl
  cases hevent : o.wasapi.createEvent with
  | true =>
    have hall : ∀ voices ∈ Synth.allVoices.sublists,
        ∀ result ∈ callOutcomes ((WASAPI.calls (.successful true) voices).map Call.shape),
          (Setup.ofResult result order).Balanced outlives backendRegion
            ({.audioClient, .renderClient, .mixFormat, .audioEvent} ∪ voices.toFinset) {.com} := by
      decide
    rw [hevent] at hshapes
    exact Setup.ofCalls_balanced hshapes (hall _ (voicesOf_mem o.voiceNew))
  | false =>
    have hall : ∀ voices ∈ Synth.allVoices.sublists,
        ∀ result ∈ callOutcomes ((WASAPI.calls (.successful false) voices).map Call.shape),
          (Setup.ofResult result order).Balanced outlives backendRegion ∅ {.com} := by
      decide
    rw [hevent] at hshapes
    have hfailed : (WASAPI.setup o).ok = false :=
      (runCalls_fst _).trans (by simp [WASAPI.calls, hevent])
    exact (Setup.ofCalls_balanced hshapes (hall _ (voicesOf_mem o.voiceNew))).of_failed hfailed

/-- The setup of a UDP source is that of `init`: it succeeds when `init` returns true, and the
destructor closes the socket that `init` leaves in `fd`. -/
theorem MIDISourceUDP.setup_init (target : Target) (long : LongWidth) (api : SocketApi)
    (client : String) :
    (MIDISourceUDP.setup target api client).ok = (MIDISourceUDP.init long api {} client).1 ∧
      (MIDISourceUDP.setup target api client).destroy =
        if (MIDISourceUDP.init long api {} client).2.fd.isSome then [.release .sourceSocket]
        else [] := by
  unfold MIDISourceUDP.setup MIDISourceUDP.calls MIDISourceUDP.init Setup.ofCalls Setup.ofResult
  by_cases hclient : client = ""
  · simp [hclient, runCalls, acquired, freed]
  cases hapi : api.initSocketApi with
  | false => simp [hclient, runCalls, acquired, freed]
  | true =>
    cases hsocket : api.socket with
    | none => cases target <;> simp [hclient, runCalls, acquired, freed, Target.socketApi]
    | some fd =>
      have hacquired : ∀ more, .sourceSocket ∈ acquired (target.socketApi false ++
          .acquire .sourceSocket :: more) := fun more => by
        cases target <;> simp [acquired, Target.socketApi]
      by_cases hoption : api.setsockopt < 0
      · simp [hclient, hoption, hacquired, runCalls, freed]
      · by_cases hbind : api.bind < 0
        · simp [hclient, hoption, hbind, hacquired, runCalls, freed]
        · simp [hclient, hoption, hbind, hacquired, runCalls, freed]

/-- The setup of a UDP sink is that of its `init`, likewise. -/
theorem UDPSink.setup_init (target : Target) (api : SocketApi) (server : String) :
    (UDPSink.setup target api server).ok = (UDPSink.init api {} server).1 ∧
      (UDPSink.setup target api server).destroy =
        if (UDPSink.init api {} server).2.fd.isSome then [.release .sinkSocket] else [] := by
  unfold UDPSink.setup UDPSink.init
  cases Text.splitLast ':' server.toList with
  | none => simp
  | some split =>
    obtain ⟨hostname, port⟩ := split
    unfold UDPSink.calls Setup.ofCalls Setup.ofResult
    cases hapi : api.initSocketApi with
    | false => simp [runCalls, acquired, freed]
    | true =>
      cases hlookup : api.getaddrinfo hostname port with
      | none => cases target <;> simp [hlookup, runCalls, acquired, freed, Target.socketApi]
      | some lookup =>
        have hacquired : .sinkSocket ∉ acquired (target.socketApi true ++
            [.acquire .addresses, .use .addresses, .release .addresses]) := by
          cases target <;> simp [acquired, Target.socketApi]
        cases hfind : lookup.find? fun iter => iter.aiFamily = .inet ∧ iter.aiAddrlen = 16 with
        | none =>
          simp only [hlookup, Option.getD_some, hfind]
          simp [hacquired, runCalls, freed]
        | some iter =>
          simp only [hlookup, Option.getD_some, hfind]
          cases hsocket : api.socket with
          | none => simp [hacquired, runCalls, freed]
          | some fd =>
            have hacquired' : .sinkSocket ∈ acquired (target.socketApi true ++
                [.acquire .addresses, .use .addresses, .release .addresses,
                  .acquire .sinkSocket]) := by
              cases target <;> simp [acquired, Target.socketApi]
            simp [hacquired', runCalls, freed]

end Sussybard
