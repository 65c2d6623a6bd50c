import BleRepeater.Ble.Filing
import BleRepeater.Ble.Sessions

/-!
# Links

What the tracker knows of the link behind a handle, whether there is an entry for it or not:
an entry that is created by looking a handle up knows no more than no entry at all.  Every
operation does one thing to the link of every handle.
-/

namespace BleRepeater

open Transition Tracker

/-- What BTstack's events tell of the connection of a handle. -/
structure Link where
  connected : Bool := false
  notificationEnabled : Bool := false
  btMtu : UInt16 := 0
  packetServiceStartGroupHandle : UInt16 := 0
  packetServiceEndGroupHandle : UInt16 := 0
  packetCharacteristicValueHandle : UInt16 := 0
  role : UInt8 := hciRoleInvalid
  deriving DecidableEq

/-- The link of a connection. -/
def BleConnection.link (connection : BleConnection) : Link where
  connected := connection.connected
  notificationEnabled := connection.notificationEnabled
  btMtu := connection.btMtu
  packetServiceStartGroupHandle := connection.packetServiceStartGroupHandle
  packetServiceEndGroupHandle := connection.packetServiceEndGroupHandle
  packetCharacteristicValueHandle := connection.packetCharacteristicValueHandle
  role := connection.role

namespace Tracker

/-- The link of a handle. -/
def linkAt (tracker : Tracker) (handle : UInt16) : Link :=
  ((tracker.connections.find? handle).map fun entry => entry.connection.link).getD {}

/-- What an operation makes of the link of a handle. -/
def Operation.relink (tracker : Tracker) (handle : UInt16) (link : Link) : Operation → Link
  | .reportConnection _ opened addr _ =>
      if handle = opened then
        { (if (tracker.availableNeighbours.find? addr).isSome then {} else link) with
          connected := true }
      else link
  | .reportConnectionWithRole _ opened addr _ role =>
      if handle = opened then
        { (if (tracker.availableNeighbours.find? addr).isSome then {} else link) with
          connected := true
          role }
      else link
  | .reportDisconnection closed =>
      if handle = closed then { link with notificationEnabled := false, connected := false }
      else link
  | .cleanupStaleItems uptime =>
      if (tracker.connections.find? handle).any fun entry =>
          connectionStale (tracker.timeMs uptime) entry.connection then {}
      else link
  | _ => link

/-! ## Changing one connection -/

variable {tracker before after : Tracker} {handle : UInt16}

end Tracker

end BleRepeater
