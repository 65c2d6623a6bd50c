import BleRepeater.Main.Advertising

/-!
# Advertising data

`populate_advertising_data` appends the flags, the UUID of the service and the name to
`adv_data`, a static array of 31 bytes that nothing ever clears.  The three structures fill the
array to its end, so a second call would write behind it.  A repeater that hears the first
result knows it for a repeater.
-/

namespace BleRepeater

open Tracker

/-- `adv_data` and `adv_data_len`. -/
structure AdvData where
  bytes : Bytes := List.replicate 31 0
  len : UInt8 := 0
  deriving DecidableEq

namespace AdvData

/-- `BLE_ADVERTISING_MAX_LENGTH`. -/
def bleAdvertisingMaxLength : UInt8 := 31

/-- `adv_data[adv_data_len++] = byte`, unless that is outside of the array. -/
def push (byte : UInt8) (adv : AdvData) : Option AdvData :=
  if adv.len < bleAdvertisingMaxLength then
    some { bytes := adv.bytes.set adv.len.toNat byte, len := adv.len + 1 }
  else none

/-- `memcpy` to `&adv_data[adv_data_len]`, unless that writes outside of the array; the length
is advanced by as much. -/
def copy (source : Bytes) (adv : AdvData) : Option AdvData :=
  if adv.len.toNat + source.length ≤ bleAdvertisingMaxLength.toNat then
    some {
      bytes := adv.bytes.take adv.len.toNat ++ source ++
        adv.bytes.drop (adv.len.toNat + source.length)
      len := adv.len + UInt8.ofNat source.length }
  else none

/-- The start of `populate_advertising_data`: the flags and the UUID of the service. -/
def pushService (adv : AdvData) : Option AdvData := do
  let adv ← adv.push 2
  let adv ← adv.push 0x01
  let adv ← adv.push 0x06
  let adv ← adv.push 17
  let adv ← adv.push 0x06
  adv.copy MainProgram.packetServiceUuidReversed

/-- The rest of `populate_advertising_data`: as much of the name as fits. -/
def pushName (adv : AdvData) : Option AdvData := do
  let nameLen := UInt8.ofNat packetServiceName.length
  -- the cast to `uint8_t` wraps when there is no room for two more bytes
  let fitableNameLen := min (bleAdvertisingMaxLength - adv.len - 2) nameLen
  let adv ← adv.push (fitableNameLen + 1)
  let adv ← adv.push (if fitableNameLen = nameLen then 0x09 else 0x08)
  adv.copy (packetServiceName.take fitableNameLen.toNat)

/-- `populate_advertising_data`. -/
def populateAdvertisingData (adv : AdvData) : Option AdvData :=
  adv.pushService.bind pushName

end AdvData

namespace AdvData

/-- The array as the first call leaves it. -/
def full : AdvData where
  bytes := MainProgram.ownAdvertisement.structures.flatMap MainProgram.AdStructure.bytes
  len := MainProgram.ownAdvertisement.size

theorem populate_new : ({} : AdvData).populateAdvertisingData = some full := by
  decide

/-- There is no room for a second call. -/
theorem populate_full : full.populateAdvertisingData = none := by
  decide

end AdvData

/-- What a repeater advertises is detected, with its name, whatever lies behind it. -/
theorem checkForUuid_full {iterate : MainProgram.AdIterator} {memory : MainProgram.Memory}
    (yields : MainProgram.YieldsInOrder iterate)
    (present : ∀ index byte, AdvData.full.bytes[index]? = some byte → memory index = byte) :
    MainProgram.checkForUuid iterate memory AdvData.full.len = .andNameFound := by
  have whole : ∀ structured ∈ MainProgram.ownAdvertisement.structures,
      structured.Whole := by
    intro structured member
    rw [MainProgram.whole_iff]
    revert structured
    decide
  have checked := MainProgram.checkForUuid_eq yields present whole
  exact checked.trans (by decide)

end BleRepeater
