import Wtquic.Proto.SfGrammar
import Wtquic.Proto.QpackSection
import Wtquic.Proto.QpackHuffman
import Wtquic.Proto.SettingsPairs
import Wtquic.Proto.CapsuleStream
import Wtquic.Proto.ConnectRoundTrip
import Wtquic.Proto.ConnectOrder
import Wtquic.Proto.Feeds
import Wtquic.Engine.PathPrivacy
import Wtquic.Engine.Datagram
import Wtquic.Engine.Shutdown
import Wtquic.Engine.Silence
import Wtquic.Engine.Outcomes
import Wtquic.Engine.ConnectCall
import Wtquic.Engine.Origin
import Wtquic.Msquic.FlushCounters
import Wtquic.Network.LifecycleRun
import Wtquic.Network.ReceiveRun
import Wtquic.Engine.Aside
import Wtquic.Lib.Packets
