import Sussybard.General.Voice
import Sussybard.General.Transducer
import Sussybard.General.Ring
import Sussybard.General.Numeral
import Sussybard.General.Buffer
import Sussybard.General.Rounding
import Sussybard.Synth
import Sussybard.SynthRing
import Sussybard.SynthFifo
import Sussybard.CounterWrap
import Sussybard.KeySink
import Sussybard.Tracker
import Sussybard.HandleNote
import Sussybard.LastPress
import Sussybard.Udp
import Sussybard.MainLoop
import Sussybard.Routing
import Sussybard.KeyTrace
import Sussybard.Sounding
import Sussybard.Datagrams
import Sussybard.Noninterference
import Sussybard.Commands
import Sussybard.Mirror
import Sussybard.Coop
import Sussybard.Resync
import Sussybard.Backlog
import Sussybard.CliParser
import Sussybard.Numbers
import Sussybard.CommandLine
import Sussybard.Filter
import Sussybard.Dsp
import Sussybard.Convert
import Sussybard.Render
import Sussybard.PulseLock
import Sussybard.KeyTable
import Sussybard.NoteArithmetic
import Sussybard.MidiSources
import Sussybard.General.Monitor
import Sussybard.MidiQueue
import Sussybard.Sessions
import Sussybard.Wasapi
import Sussybard.WasapiStream
import Sussybard.WasapiStop
import Sussybard.PulseSessions
import Sussybard.SynthSessions
import Sussybard.FrontEnds
import Sussybard.AudioThread
import Sussybard.General.Text
import Sussybard.UdpPorts
import Sussybard.KeyInjection
import Sussybard.SynthSplits
import Sussybard.General.Ledger
import Sussybard.Resources
import Sussybard.ResourceObjects
import Sussybard.ResourceScopes
