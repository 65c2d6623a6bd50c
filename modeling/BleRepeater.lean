import BleRepeater.CircularBuffer.Queue
import BleRepeater.CircularBuffer.ConsumeLine
import BleRepeater.CircularBuffer.Drain
import BleRepeater.CircularBuffer.Fullness
import BleRepeater.CircularBuffer.ItemWrite
import BleRepeater.CircularBuffer.Scanning
import BleRepeater.Packet.RoundTrip
import BleRepeater.Packet.ProtocolProcessor
import BleRepeater.Packet.Fields
import BleRepeater.Packet.Bounds
import BleRepeater.Packet.Room
import BleRepeater.Ble.Recipients
import BleRepeater.Ble.References
import BleRepeater.Ble.Effects
import BleRepeater.Ble.Connections
import BleRepeater.Ble.Handles
import BleRepeater.Ble.Filing
import BleRepeater.Ble.HasData
import BleRepeater.Ble.Handing
import BleRepeater.Ble.Keys
import BleRepeater.Ble.Announcing
import BleRepeater.Ble.Neighbours
import BleRepeater.Ble.Ageing
import BleRepeater.Ble.Sessions
import BleRepeater.Ble.Reports
import BleRepeater.Ble.Clock
import BleRepeater.Ble.RssiSweep
import BleRepeater.Main.Repeater
import BleRepeater.Main.RelayAnnounce
import BleRepeater.Main.RelayMessage
import BleRepeater.Main.PinActivity
import BleRepeater.Main.Lifetime
import BleRepeater.Main.Flooding
import BleRepeater.Main.Transparency
import BleRepeater.Main.Truncation
import BleRepeater.Main.Receiving
import BleRepeater.Main.AnnounceOnce
import BleRepeater.Main.OpenLinks
import BleRepeater.Main.Reannouncing
import BleRepeater.Main.Arrival
import BleRepeater.Main.ConnectGate
import BleRepeater.Main.FirstNeighbour
import BleRepeater.Main.Advertising
import BleRepeater.Main.Schedule
import BleRepeater.Main.Passing
import BleRepeater.Main.Acquaintance
import BleRepeater.Main.Serving
import BleRepeater.Main.Beacons
import BleRepeater.Main.Discovery
import BleRepeater.Main.MainLoop
import BleRepeater.Main.Alarm
import BleRepeater.Main.HandedOnce
import BleRepeater.Main.Intervals
import BleRepeater.Main.Wedge
import BleRepeater.Network.Core
import BleRepeater.Network.TimeToLive
import BleRepeater.Network.Clocks
import BleRepeater.Network.Integrity
import BleRepeater.Network.Agreement
