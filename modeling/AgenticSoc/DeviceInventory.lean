import AgenticSoc.BlackboardFirewall

/-!
# The device inventory

Endpoints of packets and sources of telemetry are resolved to the devices of an inventory.
Of two devices with one address the first counts, of two with one name the last.
-/
namespace DeviceInventory

open BlackboardFirewall

inductive BehaviorProfile where
  | continuous | sparse | degenerate | unsupported
  deriving DecidableEq, Repr

def continuousSensors : List String :=
  ["weather-sensor", "sound-sensor", "vibration-sensor", "light-sensor", "gas-sensor", "steam-sensor",
    "soil-sensor", "ultrasonic-sensor", "accelerometer-sensor"]

def sparseSensors : List String := ["motion-sensor", "rfid-sensor", "flame-sensor", "proximity-collision-sensor"]

def degenerateSensors : List String := ["water-sensor"]

def broadcastMac : String := "ff:ff:ff:ff:ff:ff"

structure DeviceRecord where
  deviceName : String
  mac : String
  ip : String
  role : String
  deriving DecidableEq, Repr

abbrev Inventory := List DeviceRecord

section Lookup

variable (lc : LowerCase)

def normalizeMac (mac : Option String) : Option String :=
  match mac with
  | none => none
  | some mac =>
    if mac = "" then none
    else some (String.ofList ((lc.lower (strip mac)).toList.map fun c => if c = '-' then ':' else c))

def byName (inventory : Inventory) (name : String) : Option DeviceRecord :=
  inventory.reverse.find? fun rec => rec.deviceName = name

def byMac (inventory : Inventory) (mac : String) : Option DeviceRecord :=
  inventory.find? fun rec => lc.lower rec.mac = mac

def byIp (inventory : Inventory) (ip : String) : Option DeviceRecord := inventory.find? fun rec => rec.ip = ip

def resolveIp (inventory : Inventory) (ip : Option String) : Option DeviceRecord :=
  match ip with
  | none => none
  | some ip => if ip = "" then none else byIp inventory (strip ip)

def resolve (inventory : Inventory) (mac ip : Option String) : Option DeviceRecord :=
  match normalizeMac lc mac with
  | none => resolveIp inventory ip
  | some norm =>
    match byMac lc inventory norm with
    | some hit => some hit
    | none => resolveIp inventory ip

end Lookup

def behaviorProfileFor (inventory : Inventory) (deviceName : String) : BehaviorProfile :=
  match byName inventory deviceName with
  | none => .unsupported
  | some rec =>
    if rec.role ≠ "sensor" then .unsupported
    else if deviceName ∈ degenerateSensors then .degenerate
    else if deviceName ∈ sparseSensors then .sparse
    else if deviceName ∈ continuousSensors then .continuous
    else .unsupported

/-- The devices that always get rows: no attackers and nothing outside the testbed. -/
def protectedInventoryNames (inventory : Inventory) : List String :=
  (inventory.filter fun rec => rec.role ∉ ["attacker", "cloud"]).map DeviceRecord.deviceName

def supportedSensorNames (inventory : Inventory) : List String :=
  (inventory.filter fun rec => behaviorProfileFor inventory rec.deviceName ≠ .unsupported).map DeviceRecord.deviceName

end DeviceInventory
