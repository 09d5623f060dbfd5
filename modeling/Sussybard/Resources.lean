import Sussybard.General.Ledger
import Sussybard.KeyTable
import Sussybard.PulseLock
import Sussybard.UdpPorts

/-!
# The resources of a run

`main` sets up a source, a key sink, a UDP sink, the synth and the audio backend,
one after another, and returns early when one of them cannot be set up;
destructors then release what has been set up, in the opposite order. The outcome
of every call of a library is a parameter. The events of a run are judged by a
ledger: nothing is used or released that is not held. What may be left over is
what the program has no call for: the operations that `pa_stream_cork` returns,
and the start-ups of COM and of the socket library of Windows.
-/

namespace Sussybard

open Ledger Transducer

/-- The two systems that the program is built for. -/
inductive Target where
  | linux
  | win32
  deriving DecidableEq, Repr

/-- What the program acquires from its libraries. -/
inductive Resource where
  /-- `snd_seq_t` -/
  | sequencer
  /-- `HMIDIIN` -/
  | midiIn
  /-- The socket of `MIDISourceUDP`. -/
  | sourceSocket
  /-- The socket of `UDPSink`. -/
  | sinkSocket
  /-- The socket library, once `WSAStartup` was called for the source or for the sink. -/
  | winsock (forSink : Bool)
  /-- The list that `getaddrinfo` makes. -/
  | addresses
  /-- `xcb_connection_t` -/
  | connection
  /-- `xcb_test_get_version_reply_t` -/
  | versionReply
  /-- `xcb_generic_error_t` -/
  | versionError
  /-- `xcb_key_symbols_t` -/
  | symbols
  /-- The array that `xcb_key_symbols_get_keycode` makes. -/
  | keycodes
  /-- `pa_threaded_mainloop` -/
  | mainloop
  /-- The thread that it runs. -/
  | mainloopThread
  /-- `pa_context` -/
  | context
  /-- `pa_stream` -/
  | stream
  /-- The `pa_operation` of a call of `pa_stream_cork`, by `start` or by `stop`. -/
  | operation (start : Bool)
  /-- COM, once `CoInitialize` was called. -/
  | com
  /-- `pEnumerator` -/
  | enumerator
  /-- `pDevice` -/
  | device
  /-- `pAudioClient` -/
  | audioClient
  /-- `format` -/
  | mixFormat
  /-- `pRenderClient` -/
  | renderClient
  /-- `audio_event` -/
  | audioEvent
  /-- `thr` -/
  | audioThread
  /-- `audio_task` -/
  | audioTask
  /-- `fmsynth_t` -/
  | voice (split : Fin 2)
  deriving DecidableEq, Repr

/-- What must not be released while something that works on it is held. The threads of the
backends work on what they play to, and on the voices. -/
def outlives : Resource → Resource → Bool
  | .connection, .symbols => true
  | .mainloop, .context | .mainloop, .mainloopThread => true
  | .context, .stream | .context, .mainloopThread => true
  | .stream, .mainloopThread | .voice _, .mainloopThread => true
  | .audioClient, .audioThread | .renderClient, .audioThread | .mixFormat, .audioThread => true
  | .audioEvent, .audioThread | .voice _, .audioThread => true
  | .audioThread, .audioTask => true
  | _, _ => false

/-- What the destructor of a pointer or a handle does, which it checks first. -/
def freed (r : Resource) : Resource × List (Event Resource) := (r, [.release r])

/-! ### The source -/

/-- What the ALSA calls of `MIDISourceALSA::init` return. -/
structure AlsaOutcomes where
  /-- `snd_seq_open` -/
  sndSeqOpen : Int32
  /-- `snd_seq_create_simple_port` -/
  createSimplePort : Int32
  /-- `snd_seq_parse_address` -/
  parseAddress : Int32
  /-- `snd_seq_connect_from` -/
  connectFrom : Int32
  deriving DecidableEq, Repr

/-- The calls of `MIDISourceALSA::init`. The client is named and the ports are listed as soon as
the sequencer is open. -/
def MIDISourceALSA.calls (o : AlsaOutcomes) : List (Call Resource) :=
  [⟨[], ¬o.sndSeqOpen < 0, [.acquire .sequencer, .use .sequencer, .use .sequencer]⟩,
    ⟨[.use .sequencer], ¬o.createSimplePort < 0, []⟩,
    ⟨[.use .sequencer], ¬o.parseAddress < 0, []⟩,
    ⟨[.use .sequencer], ¬o.connectFrom < 0, []⟩]

/-- `MIDISourceALSA::init` and `~MIDISourceALSA`. -/
def MIDISourceALSA.setup (o : AlsaOutcomes) : Setup Resource :=
  .ofCalls (MIDISourceALSA.calls o) [freed .sequencer]

/-- What the calls of `MIDISourceMM::init` return. Whether `midiInStart` succeeds does not
matter. -/
structure MidiInOutcomes where
  /-- The name of each device, where `midiInGetDevCapsA` succeeds. -/
  names : List (Option String)
  /-- `midiInOpen` succeeds. -/
  midiInOpen : Bool
  deriving DecidableEq, Repr

/-- The device with the name of the client. -/
def MidiInOutcomes.deviceID (o : MidiInOutcomes) (client : String) : Option ℕ :=
  o.names.findIdx? fun name => name = some client

/-- The calls of `MIDISourceMM::init`. -/
def MIDISourceMM.calls (o : MidiInOutcomes) (client : String) : List (Call Resource) :=
  [⟨[], client ≠ "", []⟩,
    ⟨[], o.names ≠ [], []⟩,
    ⟨[], (o.deviceID client).isSome, []⟩,
    ⟨[], o.midiInOpen, [.acquire .midiIn, .use .midiIn]⟩]

/-- `MIDISourceMM::init` and `~MIDISourceMM`. -/
def MIDISourceMM.setup (o : MidiInOutcomes) (client : String) : Setup Resource :=
  .ofCalls (MIDISourceMM.calls o client) [(.midiIn, [.use .midiIn, .release .midiIn])]

/-- What `init_socket_api` does when it succeeds. -/
def Target.socketApi (forSink : Bool) : Target → List (Event Resource)
  | .linux => []
  | .win32 => [.acquire (.winsock forSink)]

/-- The calls of `MIDISourceUDP::init`. -/
def MIDISourceUDP.calls (target : Target) (api : SocketApi) (client : String) :
    List (Call Resource) :=
  [⟨[], client ≠ "", []⟩,
    ⟨[], api.initSocketApi, target.socketApi false⟩,
    ⟨[], api.socket.isSome, [.acquire .sourceSocket]⟩,
    ⟨[.use .sourceSocket], ¬api.setsockopt < 0, []⟩,
    ⟨[.use .sourceSocket], ¬api.bind < 0, []⟩]

/-- `MIDISourceUDP::init` and `~MIDISourceUDP`. -/
def MIDISourceUDP.setup (target : Target) (api : SocketApi) (client : String) :
    Setup Resource :=
  .ofCalls (MIDISourceUDP.calls target api client) [freed .sourceSocket]

/-! ### The sinks -/

/-- The calls of `UDPSink::init` for a host and a port. -/
def UDPSink.calls (target : Target) (api : SocketApi) (hostname port : List Char) :
    List (Call Resource) :=
  let lookup := api.getaddrinfo hostname port
  let iter := (lookup.getD []).find? fun iter => iter.aiFamily = .inet ∧ iter.aiAddrlen = 16
  [⟨[], api.initSocketApi, target.socketApi true⟩,
    ⟨[], lookup.isSome, [.acquire .addresses, .use .addresses, .release .addresses]⟩,
    ⟨[], iter.isSome, []⟩,
    ⟨[], api.socket.isSome, [.acquire .sinkSocket]⟩]

/-- `UDPSink::init` and `~UDPSink`. -/
def UDPSink.setup (target : Target) (api : SocketApi) (server : String) : Setup Resource :=
  match Text.splitLast ':' server.toList with
  | none => ⟨false, [], []⟩
  | some (hostname, port) =>
    .ofCalls (UDPSink.calls target api hostname port) [freed .sinkSocket]

/-- What the X server does for `KeySink::init`. A connection that has an error, and key symbols that
are not there, are no outcomes: the source looks for neither, and hands them on to libxcb. -/
structure XcbOutcomes where
  /-- `xcb_connect` returns a connection. -/
  connect : Bool
  /-- `xcb_test_get_version_reply` returns a reply. -/
  versionReply : Bool
  /-- It reports an error. -/
  versionError : Bool
  deriving DecidableEq, Repr

/-- The calls of `KeySink::init` on Linux. -/
def XcbKeySink.calls (o : XcbOutcomes) : List (Call Resource) :=
  let replied : List (Event Resource) := if o.versionReply then [.acquire .versionReply] else []
  let failed : List (Event Resource) := if o.versionError then [.acquire .versionError] else []
  let printed : List (Event Resource) :=
    if o.versionReply then [.use .versionReply, .release .versionReply] else []
  let reported : List (Event Resource) :=
    if o.versionError then [.use .versionError, .release .versionError] else []
  [⟨[], o.connect, .acquire .connection :: .use .connection :: .use .connection ::
      (replied ++ failed ++ printed)⟩,
    ⟨reported, !o.versionError, [.use .connection, .acquire .symbols, .use .connection]⟩]

/-- `KeySink::init` and `~KeySink` on Linux. -/
def XcbKeySink.setup (o : XcbOutcomes) : Setup Resource :=
  .ofCalls (XcbKeySink.calls o) [freed .symbols, freed .connection]

/-- The translations of `initialize_bind_table`, each by the `get_keycode` of Linux, which ends
the process when there is not exactly one key code. -/
def translateKeys (layout : UInt32 → Option (List UInt8)) :
    List UInt32 → Trace Resource → Trace Resource
  | [], body => body
  | c :: cs, body =>
    match layout c with
    | none => ⟨[.use .symbols], .exits 1⟩
    | some codes =>
      let queried := [.use .symbols, .acquire .keycodes, .use .keycodes]
      match getKeycode (some codes) with
      | none => ⟨queried, .exits 1⟩
      | some _ => (translateKeys layout cs body).following (queried ++ [.release .keycodes])

/-! ### The backend and the synth -/

/-- `fms`, with all voices there. -/
def Synth.allVoices : List Resource := (List.finRange 2).map .voice

/-- The voices that a loop over `fms` finds. -/
def voicesOf (voiceNew : Fin 2 → Bool) : List Resource :=
  ((List.finRange 2).filter voiceNew).map .voice

/-- What `Pulse::init` does. The voices are those of `Synth::set_backend_parameters`. -/
def Pulse.initEvents (voiceNew : Fin 2 → Bool) (o : InitOutcomes) : List (Event Resource) :=
  if !o.mainloopNew then []
  else .acquire .mainloop :: .use .mainloop ::
    if !o.contextNew then []
    else .acquire .context :: .use .context :: .use .context ::
      if o.contextConnect < 0 then []
      else .use .mainloop :: .use .mainloop ::
        if o.mainloopStart < 0 then []
        else .acquire .mainloopThread :: .use .context ::
          if (waitLoop ContextState.belowReady o.contextStates).isNone then []
          else if o.contextState != .ready then [.use .mainloop]
          else .use .context ::
            if !o.streamNew then [.use .mainloop]
            else .acquire .stream :: .use .stream :: .use .stream ::
              if o.connectPlayback < 0 then [.use .mainloop]
              else .use .stream ::
                if (waitLoop StreamState.belowReady o.streamStates).isNone then []
                else if o.streamState != .ready then [.use .mainloop]
                else .use .stream ::
                  ((voicesOf voiceNew).map .acquire).append [.use .stream, .use .mainloop]

/-- The thread of the mainloop is running. -/
def InitOutcomes.threadRuns (o : InitOutcomes) : Bool :=
  o.mainloopNew && o.contextNew && !decide (o.contextConnect < 0) &&
    !decide (o.mainloopStart < 0)

/-- `~Pulse`, for a backend that is not active. -/
def Pulse.destroy (p : Pulse) (threadRuns : Bool) : List (Event Resource) :=
  let thread : List (Event Resource) := if threadRuns then [.release .mainloopThread] else []
  let stop : List (Event Resource) := if p.mainloop then .use .mainloop :: thread else []
  let stream : List (Event Resource) := if p.stream then [.use .stream, .release .stream] else []
  let context : List (Event Resource) :=
    if p.context then [.use .context, .release .context] else []
  let free : List (Event Resource) := if p.mainloop then [.release .mainloop] else []
  stop ++ stream ++ context ++ free

/-- `~Synth`. There are no voices unless `made`. -/
def Synth.destroy (made : Bool) (voiceNew : Fin 2 → Bool) : List (Event Resource) :=
  if made then (voicesOf voiceNew).map .release else []

/-- What the calls of `WASAPI::WASAPI` and `WASAPI::init` return. -/
structure WasapiOutcomes where
  /-- `CreateEventA` returns a handle. -/
  createEvent : Bool
  /-- `CoInitialize` succeeds. -/
  coInitialize : Bool
  /-- `CoCreateInstance` succeeds. -/
  coCreateInstance : Bool
  /-- `GetDefaultAudioEndpoint` succeeds. -/
  getDefaultAudioEndpoint : Bool
  /-- `Activate` succeeds. -/
  activate : Bool
  /-- `GetMixFormat` succeeds. -/
  getMixFormat : Bool
  /-- The format is extensible. -/
  extensible : Bool
  /-- Its samples are floats of 32 bits. -/
  float32 : Bool
  /-- `Initialize` succeeds. -/
  initializeClient : Bool
  /-- `SetEventHandle` succeeds. -/
  setEventHandle : Bool
  /-- `GetBufferSize` succeeds. -/
  getBufferSize : Bool
  /-- `GetService` succeeds. -/
  getService : Bool
  deriving DecidableEq, Repr

/-- The calls of `WASAPI::WASAPI` and `WASAPI::init`. An event that was not created cannot be set
as the handle. The voices are those of `Synth::set_backend_parameters`. -/
def WASAPI.calls (o : WasapiOutcomes) (voices : List Resource) : List (Call Resource) :=
  let event : List Resource := if o.createEvent then [.audioEvent] else []
  [⟨[], true, event.map .acquire⟩,
    ⟨[], o.coInitialize, [.acquire .com]⟩,
    ⟨[], o.coCreateInstance, [.acquire .enumerator]⟩,
    ⟨[.use .enumerator], o.getDefaultAudioEndpoint, [.acquire .device]⟩,
    ⟨[.use .device], o.activate, [.acquire .audioClient]⟩,
    ⟨[.use .audioClient], o.getMixFormat, [.acquire .mixFormat]⟩,
    ⟨[.use .mixFormat], o.extensible, []⟩,
    ⟨[.use .mixFormat], o.float32, [.use .mixFormat]⟩,
    ⟨[.use .audioClient, .use .mixFormat], o.initializeClient, []⟩,
    ⟨.use .audioClient :: event.map .use, o.createEvent && o.setEventHandle, []⟩,
    ⟨[.use .audioClient], o.getBufferSize, []⟩,
    ⟨[.use .audioClient], o.getService, .acquire .renderClient :: voices.map .acquire⟩]

/-- What `thread_runner` makes its calls on, apart from the voices. -/
inductive AudioObject where
  /-- `pAudioClient` -/
  | client
  /-- `pRenderClient` -/
  | renderer
  /-- `audio_event` -/
  | event
  /-- `format` -/
  | format
  deriving DecidableEq, Repr

/-- The resource that it is. -/
def AudioObject.resource : AudioObject → Resource
  | .client => .audioClient
  | .renderer => .renderClient
  | .event => .audioEvent
  | .format => .mixFormat

/-- The outcomes of all calls of a run. -/
structure MainOutcomes where
  /-- The calls of `MIDISourceUDP::init`. -/
  sourceApi : SocketApi
  /-- The calls of `MIDISourceALSA::init`. -/
  alsa : AlsaOutcomes
  /-- The calls of `MIDISourceMM::init`. -/
  midiIn : MidiInOutcomes
  /-- The calls of `KeySink::init` on Linux. -/
  xcb : XcbOutcomes
  /-- `xcb_key_symbols_get_keycode` -/
  layout : UInt32 → Option (List UInt8)
  /-- The calls of `UDPSink::init`. -/
  sinkApi : SocketApi
  /-- The calls of `Pulse::init`. -/
  pulse : InitOutcomes
  /-- The calls of `WASAPI::init`. -/
  wasapi : WasapiOutcomes
  /-- `fmsynth_new` returns a voice. -/
  voiceNew : Fin 2 → Bool
  /-- The calls of `mix_samples` between start and stop. -/
  mixes : ℕ
  /-- The call of `pa_stream_cork` in `Pulse::start`. -/
  startCork : Option CorkReport
  /-- The call in `Pulse::stop`. -/
  stopCork : Option CorkReport
  /-- `AvSetMmThreadCharacteristicsA` returns a handle. -/
  avSetMmThreadCharacteristics : Bool
  /-- What the other calls of `thread_runner` are made on, in order. -/
  threadCalls : List AudioObject

/-! ### The loop -/

/-- The key sink of a target. -/
def MainOutcomes.keySink (o : MainOutcomes) : Target → KeySink
  | .linux => xcbKeySink o.layout
  | .win32 => win32KeySink

/-- The session of a run. -/
def MainOutcomes.session (o : MainOutcomes) (target : Target) (args : Arguments) : Session :=
  let key := if args.keySink then some (o.keySink target) else none
  args.session (o.keySink target) ((initializeBindTable key).getD [])

/-- What an effect of the main thread uses. -/
def Effect.uses (target : Target) : Effect → List (Event Resource)
  | .send _ => [.use .sinkSocket]
  | .dispatch _ =>
    match target with
    | .linux => [.use .connection]
    | .win32 => []
  | .post _ | .readCode _ => []

/-- What `wait_next_note_event` works on. -/
def Arguments.sourceResources (args : Arguments) (target : Target) : List Resource :=
  if args.udpSource then [.sourceSocket]
  else
    match target with
    | .linux => [.sequencer]
    | .win32 => []

section Run

variable (target : Target) (args : Arguments) (o : MainOutcomes) (inputs : List LoopInput)

/-- What a round of the loop uses. -/
def useStep (session : Session) (s : LoopState) (input : LoopInput) :
    LoopState × List (Event Resource) :=
  if s.running then
    ((iterate session s input).1, (args.sourceResources target).map .use ++
      (iterate session s input).2.flatMap (Effect.uses target))
  else (s, [])

/-- The loop over these events. -/
def useLoop : LoopState × List (Event Resource) :=
  exec (useStep target args (o.session target args)) args.loopStart inputs

/-- The loop, the call of `wait_next_note_event` that ends it, and the release that follows. -/
def loopUses : List (Event Resource) :=
  let loop := useLoop target args o inputs
  let waited : List Resource := if loop.1.running then args.sourceResources target else []
  loop.2 ++ waited.map .use ++
    (releaseAtShutdown (o.session target args) loop.1).flatMap (Effect.uses target)

/-- What `on_backend_start` does with the voices, which it checks. -/
def Synth.onBackendStartUses : List (Event Resource) := (voicesOf o.voiceNew).map .use

/-- What the calls of `mix_samples` do with the voices, which they do not check. -/
def Synth.mixSamplesUses : List (Event Resource) :=
  (List.replicate o.mixes (Synth.allVoices.map .use)).flatten

/-- `Pulse::start` up to its cork. -/
def Pulse.startUses : List (Event Resource) :=
  .use .mainloop :: (Synth.onBackendStartUses o).append [.use .stream]

/-- From the report on it to the cork of `Pulse::stop`. The calls of `mix_samples` come in among
the rounds of the loop. -/
def Pulse.playUses : List (Event Resource) :=
  .use .mainloop :: ((Synth.mixSamplesUses o).append (loopUses .linux args o inputs)).append
    [.use .mainloop, .use .stream]

/-- From `pulse.start()` to `pulse.stop()` on Linux. Neither returns when its cork gets no
report. -/
def Pulse.sessionTrace : Trace Resource :=
  let started := Pulse.startUses o ++ ([.acquire (.operation true)] ++ Pulse.playUses args o inputs)
  if o.startCork.isNone then ⟨Pulse.startUses o, .blocks⟩
  else if o.stopCork.isNone then ⟨started, .blocks⟩
  else ⟨started ++ ([.acquire (.operation false)] ++ [.use .mainloop]), .returns 0⟩

/-- What `thread_runner` does before it stops the stream. -/
def WASAPI.threadUses : List (Event Resource) :=
  (o.threadCalls.map fun object => .use object.resource).append (Synth.mixSamplesUses o)

/-- `thread_runner`. It gives its task back on every way out. -/
def WASAPI.threadRunner : List (Event Resource) :=
  let task : List Resource := if o.avSetMmThreadCharacteristics then [.audioTask] else []
  task.map .acquire ++ WASAPI.threadUses o ++ task.map .release ++
    [.use .audioClient, .use .audioClient]

/-- From `pulse.start()` to `pulse.stop()` on Windows. The audio thread runs beside the loop. A
source that is a device of MIDI waits forever when there are no more events. -/
def WASAPI.sessionTrace : Trace Resource :=
  let started := Synth.onBackendStartUses o ++ ([.acquire .audioThread] ++
    (WASAPI.threadRunner o ++ loopUses .win32 args o inputs))
  if (useLoop .win32 args o inputs).1.running && !args.udpSource then ⟨started, .blocks⟩
  else ⟨started ++ ([.use .audioEvent] ++ [.release .audioThread]), .returns 0⟩

end Run

/-! ### The main function -/

/-- The backend and the synth on Linux, when `Pulse::init` returns. -/
def Pulse.setup (o : MainOutcomes) (call : PulseCall) : Setup Resource where
  ok := call.returned
  events := Pulse.initEvents o.voiceNew o.pulse
  destroy := Pulse.destroy call.pulse o.pulse.threadRuns ++ Synth.destroy call.returned o.voiceNew

/-- The backend and the synth on Windows. -/
def WASAPI.setup (o : MainOutcomes) : Setup Resource :=
  .ofCalls (WASAPI.calls o.wasapi (voicesOf o.voiceNew))
    ([.mixFormat, .renderClient, .audioClient, .device, .enumerator, .audioEvent].map freed ++
      Synth.allVoices.map freed)

/-- The scope of the backend and the synth. -/
def backendTrace (target : Target) (args : Arguments) (o : MainOutcomes)
    (inputs : List LoopInput) : Trace Resource :=
  match target with
  | .linux =>
    match Pulse.init {} 2 o.pulse with
    | none => ⟨Pulse.initEvents o.voiceNew o.pulse, .blocks⟩
    | some call => (Pulse.setup o call).scope 1 (Pulse.sessionTrace args o inputs)
  | .win32 => (WASAPI.setup o).scope 1 (WASAPI.sessionTrace args o inputs)

/-- `create_midi_source` -/
def createMidiSource (target : Target) (args : Arguments) (o : MainOutcomes) :
    Setup Resource :=
  if args.udpSource then MIDISourceUDP.setup target o.sourceApi args.client
  else
    match target with
    | .linux => MIDISourceALSA.setup o.alsa
    | .win32 => MIDISourceMM.setup o.midiIn args.client

/-- `key`, which is a null pointer without `--key-sink`, and has nothing on Windows. -/
def keySetup (target : Target) (args : Arguments) (o : MainOutcomes) : Setup Resource :=
  match target with
  | .linux => if args.keySink then XcbKeySink.setup o.xcb else .absent
  | .win32 => .absent

/-- `udp_sink`, which is a null pointer without `--udp-sink`. -/
def sinkSetup (target : Target) (args : Arguments) (o : MainOutcomes) : Setup Resource :=
  if args.udpSink = "" then .absent else UDPSink.setup target o.sinkApi args.udpSink

/-- The keys that `initialize_bind_table` translates by `get_keycode`. -/
def keysymsOf (target : Target) (args : Arguments) : List UInt32 :=
  match target with
  | .linux => if args.keySink then (List.range numKeys).flatMap bindKeys else []
  | .win32 => []

/-- `main`, from `create_midi_source` on. -/
def mainTrace (target : Target) (args : Arguments) (o : MainOutcomes)
    (inputs : List LoopInput) : Trace Resource :=
  (createMidiSource target args o).scope 1 <| (keySetup target args o).scope 1 <|
    (sinkSetup target args o).scope 1 <| translateKeys o.layout (keysymsOf target args) <|
      backendTrace target args o inputs

end Sussybard
